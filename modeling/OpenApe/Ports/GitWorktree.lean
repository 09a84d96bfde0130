import Mathlib.Data.List.DropRight
import Mathlib.Data.List.Infix
import OpenApe.Verified.Fallible
import OpenApe.Verified.ShellReading
import OpenApe.Verified.Unicode

/-!
# Worktree commands

Port of the command builders of the agent runtime's `git-worktree.ts`.  A
builder returns its template with the inputs in place; the line that the shell
gets is `fill` of it.  The environment is the home directory, the working
directory and the two configured roots; a repo that is not a string is left
out.
-/

namespace OpenApe.Ports.GitWorktree

open Verified.Fallible Verified.JsText Verified.ShellReading Verified.Unicode

structure Env where
  home : JsString
  cwd : JsString
  /-- `OPENAPE_CODING_WORK_DIR` -/
  workDir : Option JsString
  /-- `OPENAPE_CODING_REPOS_DIR` -/
  reposDir : Option JsString

/-! ## Paths -/

/-- One segment of a path, after the ones before it. -/
def addSegment (segments : List JsString) (segment : JsString) :
    List JsString :=
  if segment = [] || segment = js "." then segments
  else if segment = js ".." then segments.dropLast
  else segments ++ [segment]

/-- A part of a path, after the path before it. -/
def addPart (path part : JsString) : JsString :=
  if part = [] then path
  else if part.head? = some (unit '/') then part
  else path ++ unit '/' :: part

/-- `path.resolve(...parts)`, in an absolute working directory. -/
def resolve (cwd : JsString) (parts : List JsString) : JsString :=
  unit '/' :: [unit '/'].intercalate
    (((parts.foldl addPart cwd).splitOn (unit '/')).foldl addSegment [])

/-- `dir === home || dir.startsWith(home + '/')` -/
def inHome (env : Env) (dir : JsString) : Bool :=
  dir = env.home || (env.home ++ [unit '/']).isPrefixOf dir

def jailedRoot (env : Env) (envVar : String) (raw : Option JsString)
    (fallbackName : String) : Except JsString JsString :=
  let dir := match raw with
    | none | some [] => resolve env.cwd [env.home, js fallbackName]
    | some raw => resolve env.cwd [raw]
  if inHome env dir then .ok dir
  else .error (js envVar ++ js " (" ++ dir ++
    js ") must resolve inside the agent's home")

def workRoot (env : Env) : Except JsString JsString :=
  jailedRoot env "OPENAPE_CODING_WORK_DIR" env.workDir "work"

def reposRoot (env : Env) : Except JsString JsString :=
  jailedRoot env "OPENAPE_CODING_REPOS_DIR" env.reposDir "repos"

/-! ## Checks -/

/-- `/^[…]{least,most}$/` -/
def hasUnits (allowed : CodeUnit → Bool) (least most : Nat)
    (text : JsString) : Bool :=
  decide (least ≤ text.length) && decide (text.length ≤ most) &&
    text.all allowed

/-- `[\w.-]` -/
def isTaskUnit (u : CodeUnit) : Bool :=
  isNameUnit u || u == unit '.' || u == unit '-'

/-- A unit of a branch's name: a slash as well. -/
def isBranchUnit (u : CodeUnit) : Bool := isTaskUnit u || u == unit '/'

/-- A unit of a URL: `@` and `:` as well. -/
def isUrlUnit (u : CodeUnit) : Bool :=
  isBranchUnit u || u == unit '@' || u == unit ':'

def assertTaskId (v : JsString) : Except JsString JsString :=
  if hasUnits isTaskUnit 1 64 v then .ok v
  else .error (js "task_id must match ^[a-zA-Z0-9._-]\x7b1,64\x7d$")

def assertBranch (v : JsString) : Except JsString JsString :=
  if hasUnits isBranchUnit 1 128 v then .ok v
  else .error (js "branch must match ^[A-Za-z0-9._/-]\x7b1,128\x7d$")

/-- `URL_RE` -/
def isUrl (repo : JsString) : Bool :=
  ((js "https://").isPrefixOf repo &&
      hasUnits isUrlUnit 3 256 (repo.drop 8)) ||
    ((js "git@").isPrefixOf repo && hasUnits isUrlUnit 3 256 (repo.drop 4))

/-! ## Repositories -/

structure Repo where
  source : JsString
  baseDir : JsString
  isUrl : Bool

/-- `text.replace(/\.git$/, '')` -/
def dropGit (text : JsString) : JsString :=
  if (js ".git").isSuffixOf text then text.take (text.length - 4) else text

def isSeparator (u : CodeUnit) : Bool := u == unit '/' || u == unit ':'

/-- The clone's name: the last two parts of a URL. -/
def cloneName (repo : JsString) : JsString :=
  let tail := (dropGit repo).rdropWhile isSeparator
  let parts := (tail.splitOnP isSeparator).filter fun part => !part.isEmpty
  ([unit '-'].intercalate (parts.drop (parts.length - 2))).filter isTaskUnit

def resolveRepo (env : Env) (repo : JsString) : Except JsString Repo := do
  if repo = [] then
    throw (js "repo must be a non-empty string (URL or path under $HOME)")
  if isUrl repo then
    let base := cloneName repo
    if base = [] then
      throw (js "could not derive a clone name from repo URL")
    return ⟨repo, resolve env.cwd [← reposRoot env, base], true⟩
  let candidate := resolve env.cwd
    [env.home, if (js "~/").isPrefixOf repo then repo.drop 2 else repo]
  if inHome env candidate then return ⟨candidate, candidate, false⟩
  else throw (js "repo path \"" ++ repo ++
    js "\" resolves outside the agent's home")

def worktreePathFor (env : Env) (taskId : JsString) :
    Except JsString JsString := do
  return resolve env.cwd [← workRoot env, ← assertTaskId taskId]

/-! ## The issue of a branch -/

/-- `/^issue-(\d+)/`: the digits are followed by a non-digit or the end. -/
def issueAt (text : JsString) : Option JsString :=
  if (js "issue-").isPrefixOf text then
    match (text.drop 6).takeWhile fun u => 48 ≤ u && u ≤ 57 with
    | [] => none
    | digits => some digits
  else none

def issueAfterSlash : JsString → Option JsString
  | [] => none
  | u :: rest =>
      match if u = unit '/' then issueAt rest else none with
      | some issue => some issue
      | none => issueAfterSlash rest

def issueOf (branch : JsString) : Option JsString :=
  match issueAt branch with
  | some issue => some issue
  | none => issueAfterSlash branch

/-! ## Commands -/

def words (text : String) : List Piece := [.fixed (js text)]

/-- `'…'`: callers validate the text. -/
def q (text : JsString) : List Piece :=
  [.fixed [unit '\''], .input text, .fixed [unit '\'']]

/-- `'(^|/)issue-${issue}([^0-9]|$)'` -/
def issuePattern (issue : JsString) : List Piece :=
  [.fixed (js "'(^|/)issue-"), .input issue, .fixed (js "([^0-9]|$)'")]

/-- Refuses, with exit code 17, when the branch's issue has an attempt. -/
def buildDuplicateGuard (baseDir branch : JsString) : List Piece :=
  match issueOf branch with
  | none => words "true"
  | some issue => joined (js " ") [
      words "existing=$(git -C " ++ q baseDir ++
        words " for-each-ref --format='%(refname:short)'" ++
        words " refs/heads refs/remotes",
      words "| sed 's|^origin/||' | sort -u" ++ words " | grep -E " ++
        issuePattern issue ++ words " | grep -vx " ++ q branch ++
        words " || true);",
      words "if [ -n \"$existing\" ]; then",
      words "printf 'issue " ++ [.input issue] ++
        words " already has: %s\\n' " ++
        words "\"$(echo \"$existing\" | tr '\\n' ' ')\" >&2;",
      words "exit 17; fi"]

/-- `/github\.com/i` -/
def mentionsGithub (source : JsString) : Bool :=
  decide (js "github.com" <:+: source.map asciiLower)

def cloneCommand (repo : Repo) : List Piece :=
  if repo.isUrl then
    words "if [ ! -d " ++ q repo.baseDir ++ words "/.git ]; then git clone " ++
      q repo.source ++ words " " ++ q repo.baseDir ++ words "; fi"
  else words "test -d " ++ q repo.baseDir ++ words "/.git"

def resetCommand (baseDir wt : JsString) : List Piece :=
  joined (js "; ") [
    words "git -C " ++ q baseDir ++ words " worktree remove --force " ++
      q wt ++ words " 2>/dev/null || true",
    words "git -C " ++ q baseDir ++
      words " worktree prune 2>/dev/null || true",
    words "rm -rf " ++ q wt ++ words " 2>/dev/null || true"]

def ghAuthCommand (repo : Repo) : List Piece :=
  if mentionsGithub repo.source then
    words "git -C " ++ q repo.baseDir ++
      words " config credential.helper '' && " ++
      words "git -C " ++ q repo.baseDir ++
      words " config --add credential.helper " ++
      words "'!f() \x7b echo username=x-access-token; " ++
      words "echo \"password=$GH_TOKEN\"; \x7d; f'"
  else words "true"

def buildCreateCommand (env : Env) (repo taskId branch : JsString)
    (allowDuplicate : Bool) : Except JsString (List Piece) := do
  let id ← assertTaskId taskId
  let br ← assertBranch branch
  let repo ← resolveRepo env repo
  let wt ← worktreePathFor env id
  let repos ← reposRoot env
  let work ← workRoot env
  return joined (js " && ") [
    words "mkdir -p " ++ q repos ++ words " " ++ q work,
    cloneCommand repo,
    ghAuthCommand repo,
    words "git -C " ++ q repo.baseDir ++ words " fetch --quiet || true",
    if allowDuplicate then words "true"
      else buildDuplicateGuard repo.baseDir br,
    words "\x7b " ++ resetCommand repo.baseDir wt ++ words "; \x7d",
    words "git -C " ++ q repo.baseDir ++ words " worktree add -B " ++ q br ++
      words " " ++ q wt,
    words "echo " ++ q wt]

def buildRemoveCommand (env : Env) (repo taskId : JsString) :
    Except JsString (List Piece) := do
  let id ← assertTaskId taskId
  let repo ← resolveRepo env repo
  let wt ← worktreePathFor env id
  return words "git -C " ++ q repo.baseDir ++
    words " worktree remove --force " ++ q wt ++ words " && git -C " ++
    q repo.baseDir ++ words " worktree prune"

/-! ## The templates -/

/-- A text that leads back to what encloses it. -/
theorem leads_words {state : State} {text : String}
    (h : (read state (js text)).2 = state) :
    Leads state (words text) state := leads_fixed h

theorem leads_q (outer : State) (text : JsString) :
    Leads (.command :: outer) (q text) (.command :: outer) :=
  (leads_fixed rfl).append ((leads_single _ text).append (leads_fixed rfl))

@[simp] theorem quotable_words (text : String) : Quotable (words text) :=
  quotable_fixed.mpr quotable_nil

@[simp] theorem quotable_q {text : JsString} :
    Quotable (q text) ↔ unit '\'' ∉ text := by
  rw [q, quotable_fixed, quotable_input, quotable_fixed]
  exact and_iff_left quotable_nil

/-- The digits of an issue. -/
theorem issueAt_digits {text issue : JsString} (h : issueAt text = some issue) :
    ∀ u ∈ issue, 48 ≤ u ∧ u ≤ 57 := by
  rw [issueAt] at h
  split at h
  · split at h
    · cases h
    · cases h
      intro u hu
      simpa using List.mem_takeWhile_imp hu
  · cases h

theorem issueAfterSlash_digits {text issue : JsString}
    (h : issueAfterSlash text = some issue) :
    ∀ u ∈ issue, 48 ≤ u ∧ u ≤ 57 := by
  induction text with
  | nil => cases h
  | cons u rest ih =>
      rw [issueAfterSlash] at h
      split at h
      · rename_i hSome
        cases h
        split at hSome
        · exact issueAt_digits hSome
        · cases hSome
      · exact ih h

theorem issueOf_digits {branch issue : JsString}
    (h : issueOf branch = some issue) : ∀ u ∈ issue, 48 ≤ u ∧ u ≤ 57 := by
  rw [issueOf] at h
  split at h
  · rename_i hSome
    cases h
    exact issueAt_digits hSome
  · exact issueAfterSlash_digits h

theorem assertTaskId_eq {v id : JsString} (h : assertTaskId v = .ok id) :
    v = id := by
  rw [assertTaskId] at h
  split at h
  · cases h
    rfl
  · cases h

theorem assertBranch_eq {v branch : JsString}
    (h : assertBranch v = .ok branch) :
    v = branch ∧ hasUnits isBranchUnit 1 128 v = true := by
  rw [assertBranch] at h
  split at h
  · rename_i hUnits
    cases h
    exact ⟨rfl, hUnits⟩
  · cases h

theorem quote_notMem_of_digits {text : JsString}
    (h : ∀ u ∈ text, 48 ≤ u ∧ u ≤ 57) : unit '\'' ∉ text := fun hQuote =>
  absurd (h _ hQuote) (by decide)

theorem quote_notMem_of_units {allowed : CodeUnit → Bool}
    (hAllowed : allowed (unit '\'') = false) {least most : Nat}
    {text : JsString} (h : hasUnits allowed least most text = true) :
    unit '\'' ∉ text := by
  simp only [hasUnits, Bool.and_eq_true, List.all_eq_true] at h
  intro hQuote
  rw [h.2 _ hQuote] at hAllowed
  cases hAllowed

theorem quote_notMem_of_url {repo : JsString} (h : isUrl repo = true) :
    unit '\'' ∉ repo := by
  have hSplit : ∀ start : JsString, unit '\'' ∉ start → ∀ n,
      (start.isPrefixOf repo && hasUnits isUrlUnit 3 256 (repo.drop n)) =
        true → n = start.length → unit '\'' ∉ repo := by
    rintro start hStart n hBoth rfl
    rw [Bool.and_eq_true, List.isPrefixOf_iff_prefix] at hBoth
    obtain ⟨⟨rest, rfl⟩, hRest⟩ := hBoth
    rw [List.drop_left] at hRest
    rw [List.mem_append, not_or]
    exact ⟨hStart, quote_notMem_of_units (by decide) hRest⟩
  rw [isUrl, Bool.or_eq_true] at h
  rcases h with h | h
  · exact hSplit _ (by decide) 8 h (by decide)
  · exact hSplit _ (by decide) 4 h (by decide)

theorem leads_duplicateGuard (baseDir branch : JsString) :
    Leads [.command] (buildDuplicateGuard baseDir branch) [.command] := by
  rw [buildDuplicateGuard]
  split
  · exact leads_words (by decide)
  · rename_i issue _
    -- the first two parts are in and out of the substitution
    have hOpen : Leads [.command] (words "existing=$(git -C ")
        [.command, .command] := leads_fixed (by decide)
    have hClose : Leads [.command, .command] (words " || true);")
        [.command] := leads_fixed (by decide)
    have hList : Leads [.command]
        (words "existing=$(git -C " ++ q baseDir ++
          words " for-each-ref --format='%(refname:short)'" ++
          words " refs/heads refs/remotes") [.command, .command] :=
      ((hOpen.append (leads_q [.command] baseDir)).append
        (leads_words (by decide))).append
        (leads_words (by decide))
    have hPattern : Leads [.command, .command] (issuePattern issue)
        [.command, .command] :=
      (leads_fixed (by decide)).append
        ((leads_single [.command, .command] issue).append
          (leads_fixed (by decide)))
    have hOthers : Leads [.command, .command]
        (words "| sed 's|^origin/||' | sort -u" ++ words " | grep -E " ++
          issuePattern issue ++ words " | grep -vx " ++ q branch ++
          words " || true);") [.command] :=
      (((((leads_words (by decide)).append
        (leads_words (by decide))).append hPattern).append
        (leads_words (by decide))).append
        (leads_q [.command] branch)).append hClose
    have hMessage : Leads [.command] (words "printf 'issue ")
        [.single, .command] := leads_fixed (by decide)
    have hMessageEnd : Leads [.single, .command]
        (words " already has: %s\\n' ") [.command] :=
      leads_fixed (by decide)
    have hAnswer : Leads [.command]
        (words "printf 'issue " ++ [.input issue] ++
          words " already has: %s\\n' " ++
          words "\"$(echo \"$existing\" | tr '\\n' ' ')\" >&2;")
        [.command] :=
      ((hMessage.append (leads_single [.command] issue)).append
        hMessageEnd).append (leads_words (by decide))
    have hSpace : ∀ outer : State,
        Leads (.command :: outer) [.fixed (js " ")] (.command :: outer) :=
      fun _ => leads_fixed rfl
    exact hList.append ((hSpace _).append (hOthers.append ((hSpace _).append
      ((leads_words (by decide)).append ((hSpace _).append
        (hAnswer.append ((hSpace _).append
          (leads_words (by decide)))))))))

theorem quotable_duplicateGuard {baseDir branch : JsString}
    (hBranch : unit '\'' ∉ branch) (hBase : unit '\'' ∉ baseDir) :
    Quotable (buildDuplicateGuard baseDir branch) := by
  rw [buildDuplicateGuard]
  split
  · exact quotable_words _
  · rename_i issue hIssue
    have hDigits := quote_notMem_of_digits (issueOf_digits hIssue)
    simp only [quotable_joined, List.forall_mem_cons, quotable_append,
      quotable_words, quotable_q, quotable_fixed, quotable_input,
      quotable_nil, issuePattern, hBase, hBranch, hDigits,
      List.not_mem_nil, false_implies, implies_true, not_false_eq_true,
      and_true]

theorem leads_cloneCommand (repo : Repo) :
    Leads [.command] (cloneCommand repo) [.command] := by
  have hBase := leads_q [] repo.baseDir
  rw [cloneCommand]
  split
  · exact ((((((leads_words (by decide)).append hBase).append
      (leads_words (by decide))).append
      (leads_q [] repo.source)).append
      (leads_words (by decide))).append hBase).append
      (leads_words (by decide))
  · exact ((leads_words (by decide)).append hBase).append
      (leads_words (by decide))

theorem quotable_cloneCommand {repo : Repo}
    (hSource : unit '\'' ∉ repo.source) (hBase : unit '\'' ∉ repo.baseDir) :
    Quotable (cloneCommand repo) := by
  rw [cloneCommand]
  split
  · simp only [quotable_append, quotable_words, quotable_q, hSource, hBase,
      not_false_eq_true, and_self]
  · simp only [quotable_append, quotable_words, quotable_q, hBase,
      not_false_eq_true, and_self]

theorem leads_ghAuthCommand (repo : Repo) :
    Leads [.command] (ghAuthCommand repo) [.command] := by
  have hBase := leads_q [] repo.baseDir
  have hOpen : Leads [.command]
      (words "'!f() \x7b echo username=x-access-token; ")
      [.single, .command] := leads_fixed (by decide)
  have hClose : Leads [.single, .command]
      (words "echo \"password=$GH_TOKEN\"; \x7d; f'") [.command] :=
    leads_fixed (by decide)
  rw [ghAuthCommand]
  split
  · exact (((((((leads_words (by decide)).append hBase).append
      (leads_words (by decide))).append
      (leads_words (by decide))).append hBase).append
      (leads_words (by decide))).append hOpen).append hClose
  · exact leads_words (by decide)

theorem quotable_ghAuthCommand {repo : Repo}
    (hBase : unit '\'' ∉ repo.baseDir) : Quotable (ghAuthCommand repo) := by
  rw [ghAuthCommand]
  split
  · simp only [quotable_append, quotable_words, quotable_q, hBase,
      not_false_eq_true, and_self]
  · exact quotable_words _

theorem leads_resetCommand (baseDir wt : JsString) :
    Leads [.command] (resetCommand baseDir wt) [.command] := by
  have hGit : Leads [.command] (words "git -C ") [.command] :=
    leads_words (by decide)
  have hQuiet : Leads [.command] (words " 2>/dev/null || true") [.command] :=
    leads_words (by decide)
  refine leads_joined (by decide) ?_
  simp only [List.forall_mem_cons, List.not_mem_nil, false_implies,
    implies_true, and_true]
  refine ⟨?_, ?_, ?_⟩
  · exact (((hGit.append (leads_q [] baseDir)).append
      (leads_words (by decide))).append (leads_q [] wt)).append hQuiet
  · exact (hGit.append (leads_q [] baseDir)).append
      (leads_words (by decide))
  · exact ((leads_words (by decide)).append (leads_q [] wt)).append
      hQuiet

theorem quotable_resetCommand {baseDir wt : JsString} :
    Quotable (resetCommand baseDir wt) ↔
      unit '\'' ∉ baseDir ∧ unit '\'' ∉ wt := by
  simp only [resetCommand, quotable_joined, List.forall_mem_cons,
    quotable_append, quotable_words, quotable_q, List.not_mem_nil,
    false_implies, implies_true, true_and, and_true]
  constructor
  · exact fun h => h.1
  · exact fun h => ⟨h, h.1, h.2⟩

/-! ## What the shell reads -/

/-- No directory of the repo and the task has a single quote. -/
def PlainPaths (env : Env) (repo taskId : JsString) : Prop :=
  (∀ r, resolveRepo env repo = .ok r → unit '\'' ∉ r.baseDir) ∧
    ∀ wt, worktreePathFor env taskId = .ok wt → unit '\'' ∉ wt

/-- No configured root has a single quote. -/
def PlainRoots (env : Env) : Prop :=
  (∀ dir, reposRoot env = .ok dir → unit '\'' ∉ dir) ∧
    ∀ dir, workRoot env = .ok dir → unit '\'' ∉ dir

theorem plainPaths_iff {env : Env} {repo taskId wt : JsString} {r : Repo}
    (hRepo : resolveRepo env repo = .ok r)
    (hWorktree : worktreePathFor env taskId = .ok wt) :
    PlainPaths env repo taskId ↔
      unit '\'' ∉ r.baseDir ∧ unit '\'' ∉ wt := by
  constructor
  · exact fun h => ⟨h.1 r hRepo, h.2 wt hWorktree⟩
  · rintro ⟨hBase, hPath⟩
    refine ⟨fun other hOther => ?_, fun other hOther => ?_⟩
    · rw [hRepo] at hOther
      cases hOther
      exact hBase
    · rw [hWorktree] at hOther
      cases hOther
      exact hPath

theorem plainRoots_iff {env : Env} {repos work : JsString}
    (hRepos : reposRoot env = .ok repos) (hWork : workRoot env = .ok work) :
    PlainRoots env ↔ unit '\'' ∉ repos ∧ unit '\'' ∉ work := by
  constructor
  · exact fun h => ⟨h.1 repos hRepos, h.2 work hWork⟩
  · rintro ⟨hPlain, hOther⟩
    refine ⟨fun dir hDir => ?_, fun dir hDir => ?_⟩
    · rw [hRepos] at hDir
      cases hDir
      exact hPlain
    · rw [hWork] at hDir
      cases hDir
      exact hOther

/-- The source of a repo is a URL, or its directory. -/
theorem quote_notMem_source {env : Env} {repo : JsString} {r : Repo}
    (hRepo : resolveRepo env repo = .ok r) (hBase : unit '\'' ∉ r.baseDir) :
    unit '\'' ∉ r.source := by
  rw [resolveRepo] at hRepo
  by_cases hEmpty : repo = []
  · rw [if_pos hEmpty] at hRepo
    cases hRepo
  rw [if_neg hEmpty] at hRepo
  by_cases hUrl : isUrl repo = true
  · have hSource : r.source = repo := by
      simp only [hUrl, if_true] at hRepo
      split at hRepo
      · cases hRepo
      · obtain ⟨root, -, hPure⟩ := bind_eq_ok.mp hRepo
        cases hPure
        rfl
    rw [hSource]
    exact quote_notMem_of_url hUrl
  · have hSource : r.source = r.baseDir := by
      simp only [hUrl, if_false, Bool.false_eq_true] at hRepo
      generalize resolve env.cwd [env.home, _] = candidate at hRepo
      split at hRepo
      · cases hRepo
        rfl
      · cases hRepo
    rw [hSource]
    exact hBase

theorem leads_ite {state : State} {condition : Bool} {a b : List Piece}
    (ha : Leads state a state) (hb : Leads state b state) :
    Leads state (if condition then a else b) state := by
  cases condition
  · exact hb
  · exact ha

/-- A shell finds what the create command means exactly where none of its
directories has a single quote. -/
theorem readsAsMeant_create_iff {env : Env} {repo taskId branch : JsString}
    {allowDuplicate : Bool} {command : List Piece}
    (h : buildCreateCommand env repo taskId branch allowDuplicate =
      .ok command) :
    ReadsAsMeant command ↔ PlainPaths env repo taskId ∧ PlainRoots env := by
  obtain ⟨id, hId, h⟩ := bind_eq_ok.mp h
  obtain ⟨br, hBranch, h⟩ := bind_eq_ok.mp h
  obtain ⟨r, hRepo, h⟩ := bind_eq_ok.mp h
  obtain ⟨wt, hWorktree, h⟩ := bind_eq_ok.mp h
  obtain ⟨repos, hRepos, h⟩ := bind_eq_ok.mp h
  obtain ⟨work, hWork, h⟩ := bind_eq_ok.mp h
  cases h
  obtain rfl := assertTaskId_eq hId
  obtain ⟨rfl, hUnits⟩ := assertBranch_eq hBranch
  have hPlain : unit '\'' ∉ branch := quote_notMem_of_units (by decide) hUnits
  have hBase := leads_q [] r.baseDir
  have hGit : Leads [.command] (words "git -C " ++ q r.baseDir) [.command] :=
    (leads_words (by decide)).append hBase
  rw [plainPaths_iff hRepo hWorktree, plainRoots_iff hRepos hWork,
    Leads.readsAsMeant_iff]
  · rw [quotable_joined]
    simp only [List.forall_mem_cons, quotable_append, quotable_words,
      quotable_q, List.not_mem_nil, false_implies, implies_true, true_and,
      and_true, hPlain, not_false_eq_true, quotable_resetCommand]
    constructor
    · rintro ⟨⟨hReposDir, hWorkDir⟩, -, -, hFetch, -, ⟨-, hPath⟩, -, -⟩
      exact ⟨⟨hFetch, hPath⟩, hReposDir, hWorkDir⟩
    · rintro ⟨⟨hDir, hPath⟩, hReposDir, hWorkDir⟩
      refine ⟨⟨hReposDir, hWorkDir⟩,
        quotable_cloneCommand (quote_notMem_source hRepo hDir) hDir,
        quotable_ghAuthCommand hDir, hDir, ?_, ⟨hDir, hPath⟩, ⟨hDir, hPath⟩,
        hPath⟩
      split
      · exact quotable_words _
      · exact quotable_duplicateGuard hPlain hDir
  · refine leads_joined (by decide) ?_
    simp only [List.forall_mem_cons, List.not_mem_nil, false_implies,
      implies_true, and_true]
    refine ⟨?_, leads_cloneCommand r, leads_ghAuthCommand r, ?_,
      leads_ite (leads_words (by decide))
        (leads_duplicateGuard r.baseDir branch), ?_, ?_, ?_⟩
    · exact (((leads_words (by decide)).append
        (leads_q [] repos)).append (leads_words (by decide))).append
        (leads_q [] work)
    · exact hGit.append (leads_words (by decide))
    · exact ((leads_words (by decide)).append
        (leads_resetCommand r.baseDir wt)).append
        (leads_words (by decide))
    · exact (((hGit.append (leads_words (by decide))).append
        (leads_q [] branch)).append (leads_words (by decide))).append
        (leads_q [] wt)
    · exact (leads_words (by decide)).append (leads_q [] wt)

theorem readsAsMeant_remove_iff {env : Env} {repo taskId : JsString}
    {command : List Piece}
    (h : buildRemoveCommand env repo taskId = .ok command) :
    ReadsAsMeant command ↔ PlainPaths env repo taskId := by
  obtain ⟨id, hId, h⟩ := bind_eq_ok.mp h
  obtain ⟨r, hRepo, h⟩ := bind_eq_ok.mp h
  obtain ⟨wt, hWorktree, h⟩ := bind_eq_ok.mp h
  cases h
  obtain rfl := assertTaskId_eq hId
  have hBase := leads_q [] r.baseDir
  rw [plainPaths_iff hRepo hWorktree, Leads.readsAsMeant_iff]
  · simp only [quotable_append, quotable_words, quotable_q, true_and,
      and_true]
    constructor
    · exact fun h => h.1
    · exact fun h => ⟨h, h.1⟩
  · exact ((((((leads_words (by decide)).append hBase).append
      (leads_words (by decide))).append (leads_q [] wt)).append
      (leads_words (by decide))).append hBase).append
      (leads_words (by decide))

end OpenApe.Ports.GitWorktree
