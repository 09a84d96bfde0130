import OpenApe.Ports.GitWorktree

/-!
# What a shell reads in the coding commands

Port of the command builders of the coding agent: the pull request commands of
the built-in forges in `forge.ts`, and the push command of `coding-loop.ts`.
With the worktree commands, each of them is a template with inputs.

An input stands in single quotes, in an escaped quotation or, in the push to
GitHub, in double quotes.  `commands_read_iff` says when a POSIX shell finds in
the commands exactly what the templates say: directories are not checked for
quotes, and neither is what is left of the repo in double quotes.
-/

namespace OpenApe.Ports.CodingCommands

open Verified.Fallible Verified.JsText Verified.ShellReading
open GitWorktree

/-! ## Forges -/

def isDigit (u : CodeUnit) : Bool := 48 ≤ u && u ≤ 57

/-- `ID_RE` -/
def isId (text : JsString) : Bool := hasUnits isDigit 1 12 text

def shq (s : JsString) : List Piece := [.quoted s]

/-- `assertBranch` of the forges. -/
def assertHead (v : JsString) : Except JsString JsString :=
  if hasUnits isBranchUnit 1 200 v then .ok v
  else .error (js "branch must match ^[A-Za-z0-9._/-]\x7b1,200\x7d$")

def assertId (v : JsString) : Except JsString JsString :=
  if isId v then .ok v else .error (js "id must be a number")

structure PrCreateInput where
  forge : JsString
  title : JsString
  body : JsString
  head : JsString
  base : Option JsString

/-- The reference is `String(ref)`. -/
structure PrMergeInput where
  forge : JsString
  ref : JsString
  auto : Bool
  squash : Bool
  deleteBranch : Bool

structure ForgeAdapter where
  id : JsString
  prCreate : PrCreateInput → Except JsString (List Piece)
  prMerge : PrMergeInput → Except JsString (List Piece)

/-- `parts.push(flag, shq(assertBranch(base)))`, for a base that is given. -/
def baseParts (flag : String) : Option JsString →
    Except JsString (List (List Piece))
  | none => .ok []
  | some base => do return [words flag, shq (← assertHead base)]

/-- `if (condition) parts.push(…)` -/
def when (condition : Bool) (parts : List String) : List (List Piece) :=
  if condition then parts.map words else []

/-- `ID_RE.test(ref) ? ref : assertBranch(ref)` -/
def refToken (ref : JsString) : Except JsString JsString :=
  if isId ref then .ok ref else assertHead ref

def githubAdapter : ForgeAdapter where
  id := js "github"
  prCreate i := do
    let head ← assertHead i.head
    let base ← baseParts "--base" i.base
    return joined (js " ") ([words "gh", words "pr", words "create",
      words "--title", shq i.title, words "--body", shq i.body,
      words "--head", shq head] ++ base)
  prMerge i := do
    let refTok ← refToken i.ref
    return joined (js " ") ([words "gh", words "pr", words "merge",
      shq refTok] ++ when i.squash ["--squash"] ++ when i.auto ["--auto"] ++
      when i.deleteBranch ["--delete-branch"])

def azureAdapter : ForgeAdapter where
  id := js "azure"
  prCreate i := do
    let head ← assertHead i.head
    let base ← baseParts "--target-branch" i.base
    return joined (js " ") ([words "az", words "repos", words "pr",
      words "create", words "--title", shq i.title, words "--description",
      shq i.body, words "--source-branch", shq head] ++ base)
  prMerge i := do
    let id ← assertId i.ref
    return joined (js " ") ([words "az", words "repos", words "pr",
      words "update", words "--id", [.input id]] ++
      (if i.auto then when true ["--auto-complete", "true"]
        else when true ["--status", "completed"]) ++
      when i.squash ["--merge-commit-message-style", "squash"] ++
      when i.deleteBranch ["--delete-source-branch", "true"])

/-- The built-in registry. -/
def registry : List ForgeAdapter := [githubAdapter, azureAdapter]

def getForge (id : JsString) : Except JsString ForgeAdapter :=
  match registry.find? fun adapter => adapter.id = id with
  | some adapter => .ok adapter
  | none => .error (js "unknown forge '" ++ id ++ js "'. Registered: " ++
      (js ", ").intercalate (registry.map ForgeAdapter.id) ++
      js ". Add one with registerForge().")

def buildPrCreate (input : PrCreateInput) :
    Except JsString (List Piece) := do
  (← getForge input.forge).prCreate input

def buildPrMerge (input : PrMergeInput) :
    Except JsString (List Piece) := do
  (← getForge input.forge).prMerge input

/-! ## The push -/

def isLetter (u : CodeUnit) : Bool :=
  (65 ≤ u && u ≤ 90) || (97 ≤ u && u ≤ 122)

/-- `repo.replace(/^[a-z]+:\/\/[^/]+\//i, '')` -/
def dropScheme (repo : JsString) : JsString :=
  let afterLetters := repo.dropWhile isLetter
  if repo.takeWhile isLetter ≠ [] ∧
      (js "://").isPrefixOf afterLetters then
    let host := (afterLetters.drop 3).takeWhile (· != unit '/')
    match (afterLetters.drop 3).dropWhile (· != unit '/') with
    | _ :: path => if host = [] then repo else path
    | [] => repo
  else repo

/-- The repo in the URL of the push to GitHub. -/
def slug (repo : JsString) : JsString :=
  (dropGit (dropScheme repo)).filter fun u =>
    !(u == unit '\'' || u == unit '"' || isTrimmed u)

def buildPushCommand (forge repo worktree branch : JsString) : List Piece :=
  let base := words "GIT_TERMINAL_PROMPT=0 git -C " ++ q worktree ++
    words " -c credential.helper="
  if forge = js "github" then
    base ++ words " push \"https://x-access-token:" ++
      words "$\x7bGH_TOKEN\x7d@github.com/" ++
      ([.input (slug repo)] ++ words ".git\" " ++ q branch)
  else base ++ words " push -u origin " ++ q branch

def taskIdFromIssue (number : JsString) : JsString :=
  let digits := number.filter isDigit
  js "issue-" ++ if digits = [] then js "x" else digits

/-- The push command of a run, which first builds the worktree's. -/
def pushOfRun (env : Env) (forge repo number branch : JsString) :
    Except JsString (List Piece) := do
  let taskId := taskIdFromIssue number
  let worktree ← worktreePathFor env taskId
  let _ ← buildCreateCommand env repo taskId branch false
  return buildPushCommand forge repo worktree branch

/-! ## What the shell reads -/

/-- A part of a command that quotes what it is given. -/
def Sound (part : List Piece) : Prop :=
  Leads [.command] part [.command] ∧ Quotable part

theorem sound_words {text : String}
    (h : (read [.command] (js text)).2 = [.command]) : Sound (words text) :=
  ⟨leads_words h, quotable_words text⟩

theorem sound_shq (text : JsString) : Sound (shq text) :=
  ⟨leads_quoted [] text, quotable_quoted.mpr quotable_nil⟩

theorem sound_id {text : JsString} (h : isId text = true) :
    Sound [.input text] := by
  have hDigits : ∀ u ∈ text, 48 ≤ u ∧ u ≤ 57 := by
    intro u hu
    simp only [isId, hasUnits, Bool.and_eq_true, List.all_eq_true] at h
    simpa [isDigit] using h.2 u hu
  refine ⟨⟨⟨.inr ⟨inert_digits hDigits, ?_⟩, trivial⟩, rfl⟩, ?_⟩
  · exact quote_notMem_of_digits hDigits
  · exact quotable_input.mpr ⟨quote_notMem_of_digits hDigits, quotable_nil⟩

theorem sound_when {condition : Bool} {parts : List String}
    (h : ∀ text ∈ parts, (read [.command] (js text)).2 = [.command]) :
    ∀ part ∈ when condition parts, Sound part := by
  intro part hPart
  rw [when] at hPart
  split at hPart
  · obtain ⟨text, hText, rfl⟩ := List.mem_map.mp hPart
    exact sound_words (h text hText)
  · cases hPart

theorem sound_baseParts {flag : String} {base : Option JsString}
    {parts : List (List Piece)} (h : baseParts flag base = .ok parts)
    (hFlag : (read [.command] (js flag)).2 = [.command]) :
    ∀ part ∈ parts, Sound part := by
  cases base with
  | none =>
      cases h
      exact fun part hPart => (nomatch hPart)
  | some base =>
      obtain ⟨branch, -, hParts⟩ := bind_eq_ok.mp h
      cases hParts
      rw [List.forall_mem_cons, List.forall_mem_singleton]
      exact ⟨sound_words hFlag, sound_shq branch⟩

/-- A command of sound parts reads as meant. -/
theorem readsAsMeant_joined {parts : List (List Piece)}
    (h : ∀ part ∈ parts, Sound part) :
    ReadsAsMeant (joined (js " ") parts) :=
  (leads_joined (by decide) fun part hPart =>
    (h part hPart).1).readsAsMeant_iff.mpr
      (quotable_joined.mpr fun part hPart => (h part hPart).2)

/-- What a built-in forge's adapter makes. -/
theorem getForge_cases {id : JsString} {adapter : ForgeAdapter}
    (h : getForge id = .ok adapter) :
    adapter = githubAdapter ∨ adapter = azureAdapter := by
  rw [getForge] at h
  split at h
  · rename_i found hFind
    cases h
    simpa [registry] using List.mem_of_find?_eq_some hFind
  · cases h

/-- The command that opens a pull request reads as meant. -/
theorem readsAsMeant_prCreate {input : PrCreateInput} {command : List Piece}
    (h : buildPrCreate input = .ok command) : ReadsAsMeant command := by
  obtain ⟨adapter, hAdapter, h⟩ := bind_eq_ok.mp h
  rcases getForge_cases hAdapter with rfl | rfl
  all_goals
    obtain ⟨head, -, h⟩ := bind_eq_ok.mp h
    obtain ⟨base, hBase, h⟩ := bind_eq_ok.mp h
    cases h
    refine readsAsMeant_joined ?_
    simp only [List.forall_mem_append, List.forall_mem_cons,
      List.not_mem_nil, false_implies, implies_true, sound_shq, true_and,
      and_true]
  · exact ⟨⟨sound_words (by decide), sound_words (by decide),
      sound_words (by decide), sound_words (by decide),
      sound_words (by decide), sound_words (by decide)⟩,
      sound_baseParts hBase (by decide)⟩
  · exact ⟨⟨sound_words (by decide), sound_words (by decide),
      sound_words (by decide), sound_words (by decide),
      sound_words (by decide), sound_words (by decide),
      sound_words (by decide)⟩,
      sound_baseParts hBase (by decide)⟩

/-- The command that merges a pull request reads as meant. -/
theorem readsAsMeant_prMerge {input : PrMergeInput} {command : List Piece}
    (h : buildPrMerge input = .ok command) : ReadsAsMeant command := by
  obtain ⟨adapter, hAdapter, h⟩ := bind_eq_ok.mp h
  rcases getForge_cases hAdapter with rfl | rfl
  · obtain ⟨ref, -, h⟩ := bind_eq_ok.mp h
    cases h
    refine readsAsMeant_joined ?_
    simp only [List.forall_mem_append, List.forall_mem_cons,
      List.not_mem_nil, false_implies, implies_true, sound_shq, and_true]
    exact ⟨⟨⟨⟨sound_words (by decide),
      sound_words (by decide), sound_words (by decide)⟩,
      sound_when (by decide)⟩, sound_when (by decide)⟩,
      sound_when (by decide)⟩
  · obtain ⟨id, hId, h⟩ := bind_eq_ok.mp h
    cases h
    have hDigits : isId id = true := by
      rw [assertId] at hId
      split at hId
      · rename_i hDigits
        cases hId
        exact hDigits
      · cases hId
    have hAuto : ∀ part ∈ (if input.auto then
        when true ["--auto-complete", "true"]
        else when true ["--status", "completed"]), Sound part := by
      split
      · exact sound_when (by decide)
      · exact sound_when (by decide)
    refine readsAsMeant_joined ?_
    simp only [List.forall_mem_append, List.forall_mem_cons,
      List.not_mem_nil, false_implies, implies_true, sound_id hDigits,
      and_true]
    exact ⟨⟨⟨⟨sound_words (by decide),
      sound_words (by decide), sound_words (by decide),
      sound_words (by decide), sound_words (by decide)⟩,
      hAuto⟩, sound_when (by decide)⟩, sound_when (by decide)⟩

/-- In the push to GitHub the slug stands in double quotes. -/
theorem readsAsMeant_push_iff {forge repo worktree branch : JsString}
    (hBranch : unit '\'' ∉ branch) :
    ReadsAsMeant (buildPushCommand forge repo worktree branch) ↔
      unit '\'' ∉ worktree ∧
        (forge = js "github" → plainFrom false (slug repo) = true) := by
  have hBase : Leads [.command] (words "GIT_TERMINAL_PROMPT=0 git -C " ++
      q worktree ++ words " -c credential.helper=") [.command] :=
    ((leads_words (by decide)).append (leads_q [] worktree)).append
      (leads_words (by decide))
  by_cases hForge : forge = js "github"
  · have hUrl : Leads [.command] (words " push \"https://x-access-token:")
        [.double, .command] := leads_fixed (by decide)
    have hToken : Leads [.double, .command]
        (words "$\x7bGH_TOKEN\x7d@github.com/") [.double, .command] :=
      leads_fixed (by decide)
    have hOpen := (hBase.append hUrl).append hToken
    have hEnd : Leads [.command] (q branch) [.command] := leads_q [] branch
    have hDot : [.input (slug repo)] ++ words ".git\" " ++ q branch =
        .input (slug repo) :: .fixed (unit '.' :: js "git\" ") ::
          q branch := rfl
    have hAfter : (read [.double, .command]
        (unit '.' :: js "git\" ")).2 = [.command] := by decide
    rw [buildPushCommand, if_pos hForge, hDot,
      hOpen.readsAsMeant_double_iff hAfter hEnd]
    simp only [quotable_append, quotable_words, quotable_q, true_and,
      and_true, hBranch, not_false_eq_true]
    exact and_congr_right' ⟨fun hPlain _ => hPlain, fun hPlain => hPlain hForge⟩
  · rw [buildPushCommand, if_neg hForge, Leads.readsAsMeant_iff
      ((hBase.append (leads_words (by decide))).append
        (leads_q [] branch))]
    simp only [quotable_append, quotable_words, quotable_q, true_and,
      and_true, hBranch, not_false_eq_true]
    exact (and_iff_left fun hSame => absurd hSame hForge).symm

/-- The condition on the push of a run: its worktree has no single quote, and
for GitHub what is left of the repo is plain in double quotes. -/
def PlainPush (env : Env) (forge repo number : JsString) : Prop :=
  (∀ wt, worktreePathFor env (taskIdFromIssue number) = .ok wt →
    unit '\'' ∉ wt) ∧
    (forge = js "github" → plainFrom false (slug repo) = true)

theorem readsAsMeant_pushOfRun_iff {env : Env}
    {forge repo number branch : JsString} {command : List Piece}
    (h : pushOfRun env forge repo number branch = .ok command) :
    ReadsAsMeant command ↔ PlainPush env forge repo number := by
  obtain ⟨worktree, hWorktree, h⟩ := bind_eq_ok.mp h
  obtain ⟨create, hCreate, h⟩ := bind_eq_ok.mp h
  obtain ⟨id, hId, hCreate⟩ := bind_eq_ok.mp hCreate
  obtain ⟨br, hBranch, -⟩ := bind_eq_ok.mp hCreate
  obtain ⟨rfl, hUnits⟩ := assertBranch_eq hBranch
  cases h
  rw [readsAsMeant_push_iff (quote_notMem_of_units (by decide) hUnits),
    PlainPush]
  refine and_congr_left' ⟨fun hPlain other hOther => ?_, fun hPlain => ?_⟩
  · rw [hWorktree] at hOther
    cases hOther
    exact hPlain
  · exact hPlain worktree hWorktree

/-- When a shell finds in the accepted commands what their templates say: in
the forges' always, in the others where no directory has a single quote and
the push to GitHub has a plain repo. -/
theorem commands_read_iff (env : Env) :
    (∀ repo taskId branch allowDuplicate command,
      buildCreateCommand env repo taskId branch allowDuplicate =
        .ok command →
      (ReadsAsMeant command ↔
        PlainPaths env repo taskId ∧ PlainRoots env)) ∧
    (∀ repo taskId command,
      buildRemoveCommand env repo taskId = .ok command →
      (ReadsAsMeant command ↔ PlainPaths env repo taskId)) ∧
    (∀ input command, buildPrCreate input = .ok command →
      ReadsAsMeant command) ∧
    (∀ input command, buildPrMerge input = .ok command →
      ReadsAsMeant command) ∧
    ∀ forge repo number branch command,
      pushOfRun env forge repo number branch = .ok command →
      (ReadsAsMeant command ↔ PlainPush env forge repo number) :=
  ⟨fun _ _ _ _ _ => readsAsMeant_create_iff,
    fun _ _ _ => readsAsMeant_remove_iff, fun _ _ => readsAsMeant_prCreate,
    fun _ _ => readsAsMeant_prMerge,
    fun _ _ _ _ _ => readsAsMeant_pushOfRun_iff⟩

instance (pieces : List Piece) : Decidable (ReadsAsMeant pieces) :=
  inferInstanceAs (Decidable (_ ∧ _))

/-- A command that is accepted and not read as meant. -/
def Misread : Except JsString (List Piece) → Prop
  | .ok command => ¬ReadsAsMeant command
  | .error _ => False

instance (built : Except JsString (List Piece)) : Decidable (Misread built) :=
  match built with
  | .ok command => inferInstanceAs (Decidable (¬ReadsAsMeant command))
  | .error _ => inferInstanceAs (Decidable False)

def sampleEnv : Env := ⟨js "/h", js "/h", none, none⟩

/-- A repo under the home directory ends the quotes of its own path, and
another one is a substitution in the double quotes of the push. -/
theorem commands_misread :
    Misread (buildRemoveCommand sampleEnv (js "x';id;'") (js "t")) ∧
      Misread (pushOfRun sampleEnv (js "github") (js "$(id)") (js "1")
        (js "b")) := by
  decide

theorem commands_read_sample :
    ∃ command, buildRemoveCommand sampleEnv (js "x") (js "t") = .ok command ∧
      (ReadsAsMeant command ↔ PlainPaths sampleEnv (js "x") (js "t")) :=
  ⟨_, rfl, (commands_read_iff sampleEnv).2.1 (js "x") (js "t") _ rfl⟩

end OpenApe.Ports.CodingCommands
