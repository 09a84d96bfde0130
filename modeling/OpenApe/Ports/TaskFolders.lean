import OpenApe.Ports.GitWorktree
import OpenApe.Verified.Separators

/-!
# The folders of coding tasks

A task's worktree is the folder of its id in the work root, and a repo's clone
the folder of its name in the repos root.  Ids and names are checked unit by
unit, so the two dot segments pass as ids; and the name of a clone is made of
the last two parts of the URL, joined by a hyphen that may stand in the parts,
without the host.  `staysInFolder_iff` says when tasks stay apart.
-/

namespace OpenApe.Ports.TaskFolders

open Verified.Fallible Verified.JsText Verified.Separators Verified.ShellReading
open Verified.Unicode (asciiLower)
open GitWorktree

/-! ## Folders -/

/-- A name that is one segment of a path. -/
def IsSegment (name : JsString) : Prop :=
  name ≠ [] ∧ unit '/' ∉ name ∧ name ≠ js "." ∧ name ≠ js ".."

/-- The path of a name in a folder. -/
def child (root name : JsString) : JsString :=
  if root = [unit '/'] then unit '/' :: name else root ++ unit '/' :: name

/-- Directly below the folder. -/
def IsChild (root path : JsString) : Prop :=
  ∃ name, IsSegment name ∧ path = child root name

/-- An absolute path without dots and doubled slashes. -/
def Normal (path : JsString) : Prop :=
  ∃ segments, path = unit '/' :: [unit '/'].intercalate segments ∧
    ∀ segment ∈ segments, IsSegment segment

/-! ## Repositories of URLs -/

/-- A URL without its scheme. -/
def remainder (repo : JsString) : JsString :=
  if (js "https://").isPrefixOf repo then repo.drop 8 else repo.drop 4

/-- What stands before the path: up to a slash, or to the colon after
`git@`. -/
def authority (repo : JsString) : JsString :=
  if (js "https://").isPrefixOf repo then
    (remainder repo).takeWhile (· != unit '/')
  else (remainder repo).takeWhile (· != unit ':')

/-- The repository that a URL names. -/
structure Location where
  /-- Without user and port, in lower case. -/
  host : JsString
  owner : List JsString
  name : Option JsString
  deriving DecidableEq

/-- The parts of a URL's path. -/
def pathParts (repo : JsString) : List JsString :=
  ((dropGit ((remainder repo).drop (authority repo).length)).splitOnP
    isSeparator).filter fun part => !part.isEmpty

def location (repo : JsString) : Location where
  host := (((authority repo).splitOn (unit '@')).getLastD []).takeWhile
    (· != unit ':') |>.map asciiLower
  owner := (pathParts repo).dropLast
  name := (pathParts repo).getLast?

/-! ## Deleted paths -/

/-- A text after which a path follows that is deleted. -/
def deletes (text : JsString) : Bool :=
  (js "rm -rf ").isSuffixOf text ||
    (js "git worktree remove --force ").isSuffixOf text ||
    (js " worktree remove --force ").isSuffixOf text

/-- A quoted input that a template goes on with. -/
def operand : List Piece → Option JsString
  | .fixed _ :: .input path :: _ => some path
  | _ => none

/-- The operands of `rm -rf` and `git worktree remove --force`. -/
def deletions : List Piece → List JsString
  | [] => []
  | .fixed text :: rest =>
      (if deletes text then (operand rest).toList else []) ++ deletions rest
  | _ :: rest => deletions rest

/-! ## Staying apart -/

/-- A task has a folder of its own, its commands delete nothing else, and a
clone is shared by tasks of one repository only. -/
structure StaysInFolder (env : Env) (id id' repo repo' : JsString) : Prop where
  child : ∀ root path, workRoot env = .ok root →
    worktreePathFor env id = .ok path → IsChild root path
  apart : ∀ path path', worktreePathFor env id = .ok path →
    worktreePathFor env id' = .ok path' → id ≠ id' → path ≠ path'
  created : ∀ branch allowDuplicate command path,
    buildCreateCommand env repo id branch allowDuplicate = .ok command →
    worktreePathFor env id = .ok path →
    deletions command ≠ [] ∧ ∀ p ∈ deletions command, p = path
  removed : ∀ command path, buildRemoveCommand env repo id = .ok command →
    worktreePathFor env id = .ok path →
    deletions command ≠ [] ∧ ∀ p ∈ deletions command, p = path
  base : ∀ root r, reposRoot env = .ok root → isUrl repo = true →
    resolveRepo env repo = .ok r → IsChild root r.baseDir
  clones : ∀ r r', isUrl repo = true → isUrl repo' = true →
    resolveRepo env repo = .ok r → resolveRepo env repo' = .ok r' →
    location repo ≠ location repo' → r.baseDir ≠ r'.baseDir

/-! ## Resolved paths -/

theorem foldl_addSegment {start parts : List JsString}
    (hStart : ∀ segment ∈ start, IsSegment segment)
    (hParts : ∀ part ∈ parts, unit '/' ∉ part) :
    ∀ segment ∈ parts.foldl addSegment start, IsSegment segment := by
  induction parts generalizing start with
  | nil => exact hStart
  | cons part parts ih =>
      rw [List.forall_mem_cons] at hParts
      refine ih (fun segment hMem => ?_) hParts.2
      unfold addSegment at hMem
      split at hMem
      · exact hStart segment hMem
      · rename_i hSome
        split at hMem
        · exact hStart segment (List.dropLast_subset start hMem)
        · rename_i hUp
          rcases List.mem_append.mp hMem with hOld | hNew
          · exact hStart segment hOld
          · rw [List.mem_singleton.mp hNew]
            simp only [Bool.or_eq_true, decide_eq_true_eq, not_or] at hSome
            exact ⟨hSome.1, hParts.1, hSome.2, hUp⟩

theorem addSegment_segment {segments : List JsString} {name : JsString}
    (h : IsSegment name) : addSegment segments name = segments ++ [name] := by
  obtain ⟨hSome, -, hHere, hUp⟩ := h
  have hOther : (name = [] || name = js ".") = false := by simp [hSome, hHere]
  rw [addSegment, hOther, if_neg Bool.false_ne_true, if_neg hUp]

theorem foldl_segments {start segments : List JsString}
    (h : ∀ segment ∈ segments, IsSegment segment) :
    segments.foldl addSegment start = start ++ segments := by
  induction segments generalizing start with
  | nil => exact (List.append_nil start).symm
  | cons name segments ih =>
      rw [List.forall_mem_cons] at h
      rw [List.foldl_cons, addSegment_segment h.1, ih h.2, List.append_assoc]
      rfl

/-- What is resolved is normal. -/
theorem normal_resolve (cwd : JsString) (parts : List JsString) :
    Normal (resolve cwd parts) :=
  ⟨_, rfl, foldl_addSegment (fun _ h => absurd h List.not_mem_nil)
    fun _ hPart => not_mem_of_mem_splitOn hPart⟩

/-- The segments of a normal path. -/
theorem segments_normal {segments : List JsString}
    (h : ∀ segment ∈ segments, IsSegment segment) :
    ((unit '/' :: [unit '/'].intercalate segments).splitOn (unit '/')).foldl
      addSegment [] = segments := by
  have hSplit : (unit '/' :: [unit '/'].intercalate segments).splitOn
      (unit '/') = [] :: ([unit '/'].intercalate segments).splitOn
        (unit '/') := by
    rw [List.splitOn_cons_eq_if_modifyHead, if_pos (beq_self_eq_true _)]
  rw [hSplit]
  cases segments with
  | nil => rfl
  | cons name segments =>
      rw [List.splitOn_intercalate (unit '/')
        (fun part hPart => (h part hPart).2.1) (List.cons_ne_nil _ _)]
      show (name :: segments).foldl addSegment (addSegment [] []) = _
      exact foldl_segments h

/-- A segment in a normal folder. -/
theorem resolve_segment (cwd : JsString) {root id : JsString}
    (hRoot : Normal root)
    (hSome : id ≠ []) (hSlash : unit '/' ∉ id) :
    ∃ segments, root = unit '/' :: [unit '/'].intercalate segments ∧
      (∀ segment ∈ segments, IsSegment segment) ∧
      resolve cwd [root, id] =
        unit '/' :: [unit '/'].intercalate (addSegment segments id) := by
  obtain ⟨segments, hText, hSegments⟩ := hRoot
  refine ⟨segments, hText, hSegments, ?_⟩
  have hFirst : addPart cwd root = root := by
    rw [addPart, hText, if_neg (List.cons_ne_nil _ _),
      if_pos List.head?_cons]
  have hHead : id.head? ≠ some (unit '/') := fun hSame =>
    hSlash (List.mem_of_head? hSame)
  have hSecond : addPart root id = root ++ unit '/' :: id := by
    rw [addPart, if_neg hSome, if_neg hHead]
  have hSplit : (root ++ unit '/' :: id).splitOn (unit '/') =
      root.splitOn (unit '/') ++ [id] := by
    have hParts := List.splitOnP_append_cons (p := (· == unit '/')) root id
      (beq_self_eq_true (unit '/'))
    rw [List.splitOn_eq_splitOnP, hParts, ← List.splitOn_eq_splitOnP,
      ← List.splitOn_eq_splitOnP, List.splitOn_eq_singleton hSlash]
  rw [resolve, List.foldl_cons, List.foldl_cons, List.foldl_nil, hFirst,
    hSecond, hSplit, List.foldl_append, hText, segments_normal hSegments]
  rfl

theorem child_eq {segments : List JsString} {name : JsString}
    (h : ∀ segment ∈ segments, IsSegment segment) :
    unit '/' :: [unit '/'].intercalate (segments ++ [name]) =
      child (unit '/' :: [unit '/'].intercalate segments) name := by
  cases segments with
  | nil =>
      rw [List.nil_append, List.intercalate_singleton]
      rfl
  | cons first segments =>
      have hSome : first ≠ [] := (h first List.mem_cons_self).1
      have hLong : [unit '/'].intercalate (first :: segments) ≠ [] := by
        cases segments with
        | nil =>
            rw [List.intercalate_singleton]
            exact hSome
        | cons next segments =>
            rw [List.intercalate_cons_cons, List.append_assoc]
            exact fun hNone => hSome (List.append_eq_nil_iff.mp hNone).1
      have hRoot : unit '/' :: [unit '/'].intercalate (first :: segments) ≠
          [unit '/'] := fun hSame => hLong (List.cons.inj hSame).2
      rw [child, if_neg hRoot, intercalate_append (List.cons_ne_nil _ _)
        (List.cons_ne_nil _ _), List.intercalate_singleton]
      rfl

/-- A segment is resolved to the child of that name. -/
theorem resolve_child {cwd root id : JsString} (hRoot : Normal root)
    (h : IsSegment id) : resolve cwd [root, id] = child root id := by
  obtain ⟨segments, hText, hSegments, hPath⟩ :=
    resolve_segment cwd hRoot h.1 h.2.1
  rw [hPath, addSegment_segment h, child_eq hSegments, hText]

theorem child_injective {root a b : JsString}
    (h : child root a = child root b) : a = b := by
  unfold child at h
  split at h
  · exact (List.cons.inj h).2
  · exact (List.cons.inj (List.append_cancel_left h)).2

/-- A child's path is longer. -/
theorem length_lt_of_isChild {root path : JsString} (h : IsChild root path) :
    root.length < path.length := by
  obtain ⟨name, ⟨hSome, -⟩, rfl⟩ := h
  have hLength := List.length_pos_iff.mpr hSome
  unfold child
  split
  · rename_i hRoot
    rw [hRoot, List.length_singleton, List.length_cons]
    omega
  · rw [List.length_append, List.length_cons]
    omega

/-- The dot segments lead to the folder itself or above it. -/
theorem length_resolve_dots (cwd : JsString) {root id : JsString}
    (hRoot : Normal root)
    (h : id = js "." ∨ id = js "..") :
    (resolve cwd [root, id]).length ≤ root.length := by
  have hSome : id ≠ [] := by rcases h with rfl | rfl <;> decide
  have hSlash : unit '/' ∉ id := by rcases h with rfl | rfl <;> decide
  obtain ⟨segments, hText, hSegments, hPath⟩ :=
    resolve_segment cwd hRoot hSome hSlash
  rw [hPath, hText]
  rcases h with rfl | rfl
  · exact le_refl _
  · have hUp : addSegment segments (js "..") = segments.dropLast := rfl
    rw [hUp]
    rcases List.eq_nil_or_concat segments with hNone | ⟨init, last, hLast⟩
    · rw [hNone]
      exact le_refl _
    · rw [hLast, List.concat_eq_append, List.dropLast_concat]
      have hInit : ∀ segment ∈ init, IsSegment segment := fun segment hMem =>
        hSegments segment (by simp [hLast, hMem])
      have hName : IsSegment last := hSegments last (by simp [hLast])
      rw [child_eq hInit]
      exact (length_lt_of_isChild ⟨last, hName, rfl⟩).le

/-! ## Tasks -/

theorem normal_jailedRoot {env : Env} {envVar : String} {raw : Option JsString}
    {fallbackName : String} {root : JsString}
    (h : jailedRoot env envVar raw fallbackName = .ok root) : Normal root := by
  have hResolved : ∃ parts, root = resolve env.cwd parts := by
    unfold jailedRoot at h
    match raw with
    | none | some [] | some (u :: rest) =>
        dsimp only at h
        split at h
        · exact ⟨_, (Except.ok.inj h).symm⟩
        · cases h
  obtain ⟨parts, rfl⟩ := hResolved
  exact normal_resolve env.cwd parts

/-- What a task's path is made of. -/
theorem worktreePathFor_eq_ok {env : Env} {id path : JsString} :
    worktreePathFor env id = .ok path ↔
      ∃ root, workRoot env = .ok root ∧ assertTaskId id = .ok id ∧
        path = resolve env.cwd [root, id] := by
  constructor
  · intro h
    obtain ⟨root, hRoot, h⟩ := bind_eq_ok.mp h
    obtain ⟨name, hId, h⟩ := bind_eq_ok.mp h
    obtain rfl := assertTaskId_eq hId
    exact ⟨root, hRoot, hId, (Except.ok.inj h).symm⟩
  · rintro ⟨root, hRoot, hId, rfl⟩
    rw [worktreePathFor, hRoot, hId]
    rfl

/-- An accepted id is a segment unless it is one of the dots. -/
theorem isSegment_taskId {id : JsString} (h : assertTaskId id = .ok id) :
    id ≠ [] ∧ unit '/' ∉ id := by
  rw [assertTaskId] at h
  split at h
  · rename_i hUnits
    simp only [hasUnits, Bool.and_eq_true, decide_eq_true_eq,
      List.all_eq_true] at hUnits
    refine ⟨fun hNone => ?_, fun hSlash => ?_⟩
    · rw [hNone] at hUnits
      exact absurd hUnits.1.1 (Nat.not_succ_le_zero 0)
    · exact absurd (hUnits.2 _ hSlash) (by decide)
  · cases h

/-- A task has its own folder when its id is no dot segment, and only then. -/
theorem isChild_worktree_iff {env : Env} {id root path : JsString}
    (hRoot : workRoot env = .ok root)
    (hPath : worktreePathFor env id = .ok path) :
    IsChild root path ↔ id ≠ js "." ∧ id ≠ js ".." := by
  obtain ⟨root', hRoot', hId, rfl⟩ := worktreePathFor_eq_ok.mp hPath
  obtain rfl := Except.ok.inj (hRoot.symm.trans hRoot')
  have hNormal : Normal root := normal_jailedRoot hRoot
  obtain ⟨hSome, hSlash⟩ := isSegment_taskId hId
  constructor
  · intro hChild
    have hLonger := length_lt_of_isChild hChild
    refine not_or.mp fun hDots => ?_
    have hShort := length_resolve_dots env.cwd hNormal hDots
    omega
  · rintro ⟨hHere, hUp⟩
    have hSegment : IsSegment id := ⟨hSome, hSlash, hHere, hUp⟩
    exact ⟨id, hSegment, resolve_child hNormal hSegment⟩

/-- Different ids have different paths, if one of them is no dot segment. -/
theorem worktree_apart {env : Env} {id id' path path' : JsString}
    (hPath : worktreePathFor env id = .ok path)
    (hPath' : worktreePathFor env id' = .ok path')
    (hDots : id ≠ js "." ∧ id ≠ js "..") (hNe : id ≠ id') : path ≠ path' := by
  obtain ⟨root, hRoot, hId, hText⟩ := worktreePathFor_eq_ok.mp hPath
  obtain ⟨root', hRoot', hId', hText'⟩ := worktreePathFor_eq_ok.mp hPath'
  obtain rfl := Except.ok.inj (hRoot.symm.trans hRoot')
  have hNormal : Normal root := normal_jailedRoot hRoot
  have hChild := (isChild_worktree_iff hRoot hPath).mpr hDots
  obtain ⟨hSome', hSlash'⟩ := isSegment_taskId hId'
  by_cases hDots' : id' = js "." ∨ id' = js ".."
  · have hLonger := length_lt_of_isChild hChild
    have hShort := length_resolve_dots env.cwd hNormal hDots'
    rintro rfl
    rw [hText'] at hLonger
    omega
  · obtain ⟨hSome, hSlash⟩ := isSegment_taskId hId
    have hSegment : IsSegment id := ⟨hSome, hSlash, hDots⟩
    have hSegment' : IsSegment id' := ⟨hSome', hSlash', not_or.mp hDots'⟩
    rw [hText, hText', resolve_child hNormal hSegment,
      resolve_child hNormal hSegment']
    exact fun hSame => hNe (child_injective hSame)

/-! ## Commands -/

/-- The deleted paths of a part of a template, whatever follows it. -/
def Names (paths : List JsString) (part : List Piece) : Prop :=
  ∀ rest, deletions (part ++ rest) = paths ++ deletions rest

theorem Names.deletions_eq {paths : List JsString} {part : List Piece}
    (h : Names paths part) : deletions part = paths := by
  have hEnd := h []
  rwa [List.append_nil, show deletions [] = [] from rfl,
    List.append_nil] at hEnd

theorem Names.append {paths paths' : List JsString} {part part' : List Piece}
    (h : Names paths part) (h' : Names paths' part') :
    Names (paths ++ paths') (part ++ part') := by
  intro rest
  rw [List.append_assoc, h, h', List.append_assoc]

theorem names_joined {separator : JsString} (hPlain : deletes separator = false)
    {paths : List (List JsString)} {parts : List (List Piece)}
    (h : List.Forall₂ Names paths parts) :
    Names paths.flatten (joined separator parts) := by
  induction h with
  | nil => exact fun _ => rfl
  | @cons own part paths parts hPart hRest ih =>
      cases hRest with
      | nil =>
          rw [List.flatten_cons, List.flatten_nil, List.append_nil]
          exact hPart
      | cons hNext hMore =>
          have hSeparator : Names [] [.fixed separator] := by
            intro rest
            show (if deletes separator = true then _ else []) ++
              deletions rest = _
            rw [hPlain]
            rfl
          have hBehind := hSeparator.append ih
          exact hPart.append hBehind

theorem names_clone (r : Repo) : Names [] (cloneCommand r) := by
  rw [cloneCommand]
  split
  · exact fun _ => rfl
  · exact fun _ => rfl

theorem names_ghAuth (r : Repo) : Names [] (ghAuthCommand r) := by
  rw [ghAuthCommand]
  split
  · exact fun _ => rfl
  · exact fun _ => rfl

theorem names_duplicateGuard (baseDir branch : JsString) :
    Names [] (buildDuplicateGuard baseDir branch) := by
  rw [buildDuplicateGuard]
  split
  · exact fun _ => rfl
  · exact fun _ => rfl

theorem deletions_create {env : Env} {repo id branch path : JsString}
    {allowDuplicate : Bool} {command : List Piece}
    (h : buildCreateCommand env repo id branch allowDuplicate = .ok command)
    (hPath : worktreePathFor env id = .ok path) :
    deletions command = [path, path] := by
  obtain ⟨id', hId, h⟩ := bind_eq_ok.mp h
  obtain ⟨br, hBranch, h⟩ := bind_eq_ok.mp h
  obtain ⟨r, hRepo, h⟩ := bind_eq_ok.mp h
  obtain ⟨wt, hWorktree, h⟩ := bind_eq_ok.mp h
  obtain ⟨repos, hRepos, h⟩ := bind_eq_ok.mp h
  obtain ⟨work, hWork, h⟩ := bind_eq_ok.mp h
  obtain rfl := assertTaskId_eq hId
  obtain rfl := Except.ok.inj (hPath.symm.trans hWorktree)
  cases h
  have hGuard : Names [] (if allowDuplicate = true then words "true"
      else buildDuplicateGuard r.baseDir br) := by
    split
    · exact fun _ => rfl
    · exact names_duplicateGuard r.baseDir br
  have hReset : Names [path, path]
      (words "\x7b " ++ resetCommand r.baseDir path ++ words "; \x7d") :=
    fun _ => rfl
  have hRoots : Names []
      (words "mkdir -p " ++ q repos ++ words " " ++ q work) := fun _ => rfl
  have hFetch : Names []
      (words "git -C " ++ q r.baseDir ++ words " fetch --quiet || true") :=
    fun _ => rfl
  have hAdd : Names [] (words "git -C " ++ q r.baseDir ++
      words " worktree add -B " ++ q br ++ words " " ++ q path) := fun _ => rfl
  have hEcho : Names [] (words "echo " ++ q path) := fun _ => rfl
  have hSeparator : deletes (js " && ") = false := by decide
  exact (names_joined hSeparator (.cons hRoots (.cons (names_clone r)
    (.cons (names_ghAuth r) (.cons hFetch (.cons hGuard (.cons hReset
      (.cons hAdd (.cons hEcho .nil))))))))).deletions_eq

theorem deletions_remove {env : Env} {repo id path : JsString}
    {command : List Piece} (h : buildRemoveCommand env repo id = .ok command)
    (hPath : worktreePathFor env id = .ok path) :
    deletions command = [path] := by
  obtain ⟨id', hId, h⟩ := bind_eq_ok.mp h
  obtain ⟨r, hRepo, h⟩ := bind_eq_ok.mp h
  obtain ⟨wt, hWorktree, h⟩ := bind_eq_ok.mp h
  obtain rfl := assertTaskId_eq hId
  obtain rfl := Except.ok.inj (hPath.symm.trans hWorktree)
  cases h
  rfl

/-! ## Clones -/

/-- The start of a text is kept when separators are cut off its end. -/
theorem rdropWhile_cons {α : Type} {p : α → Bool} {u : α} (rest : List α)
    (h : p u = false) : (u :: rest).rdropWhile p = u :: rest.rdropWhile p := by
  rw [List.rdropWhile, List.rdropWhile, List.reverse_cons,
    List.dropWhile_append]
  split
  · rename_i hNone
    rw [List.isEmpty_iff.mp hNone]
    simp [h]
  · rw [List.reverse_append]
    rfl

theorem dropGit_cons {u : CodeUnit} {rest : JsString} (h : 4 ≤ rest.length) :
    ∃ rest', dropGit (u :: rest) = u :: rest' := by
  rw [dropGit]
  split
  · refine ⟨rest.take (rest.length - 4), ?_⟩
    have hLength : rest.length + 1 - 4 = rest.length - 4 + 1 := by omega
    rw [List.length_cons, hLength, List.take_succ_cons]
  · exact ⟨rest, rfl⟩

/-- A URL begins with a letter. -/
theorem cons_of_isUrl {repo : JsString} (h : isUrl repo = true) :
    ∃ u rest, repo = u :: rest ∧ 4 ≤ rest.length ∧
      (u = unit 'h' ∨ u = unit 'g') := by
  have hStart : ∀ (u : CodeUnit) (start : JsString) (n : Nat),
      ((u :: start).isPrefixOf repo && hasUnits isUrlUnit 3 256 (repo.drop n)) =
        true → 2 ≤ n → n = start.length + 1 →
        ∃ rest, repo = u :: rest ∧ 4 ≤ rest.length := by
    intro u start n hBoth hMore hLength
    rw [Bool.and_eq_true, List.isPrefixOf_iff_prefix] at hBoth
    obtain ⟨⟨rest, rfl⟩, hUnits⟩ := hBoth
    simp only [hasUnits, Bool.and_eq_true, decide_eq_true_eq] at hUnits
    have hRest := hUnits.1.1
    rw [List.length_drop, List.length_append, List.length_cons] at hRest
    refine ⟨start ++ rest, rfl, ?_⟩
    rw [List.length_append]
    omega
  rw [isUrl, Bool.or_eq_true] at h
  rcases h with hHttps | hGit
  · obtain ⟨rest, hText, hLong⟩ := hStart (unit 'h') (js "ttps://") 8 hHttps
      (by decide) (by decide)
    exact ⟨unit 'h', rest, hText, hLong, Or.inl rfl⟩
  · obtain ⟨rest, hText, hLong⟩ := hStart (unit 'g') (js "it@") 4 hGit
      (by decide) (by decide)
    exact ⟨unit 'g', rest, hText, hLong, Or.inr rfl⟩

/-- The last two of several parts are joined by a hyphen. -/
theorem join_lastTwo (parts : List JsString) (h : 2 ≤ parts.length) :
    ∃ a b, [unit '-'].intercalate (parts.drop (parts.length - 2)) =
      a ++ unit '-' :: b := by
  have hTwo : (parts.drop (parts.length - 2)).length = 2 := by
    rw [List.length_drop]
    omega
  obtain ⟨a, b, hParts⟩ := List.length_eq_two.mp hTwo
  refine ⟨a, b, ?_⟩
  rw [hParts, List.intercalate_cons_cons, List.intercalate_singleton,
    List.append_assoc]
  rfl

/-- The name of a clone is one segment. -/
theorem isSegment_cloneName {repo : JsString} (h : isUrl repo = true) :
    IsSegment (cloneName repo) := by
  obtain ⟨u, rest, rfl, hLong, hLetter⟩ := cons_of_isUrl h
  obtain ⟨text, hText⟩ := dropGit_cons (u := u) hLong
  have hVisible : isSeparator u = false := by
    rcases hLetter with rfl | rfl <;> decide
  have hKept : isTaskUnit u = true := by
    rcases hLetter with rfl | rfl <;> decide
  have hDot : u ≠ unit '.' := by rcases hLetter with rfl | rfl <;> decide
  have hSlash : unit '/' ∉ cloneName (u :: rest) := by
    intro hMem
    exact absurd (List.mem_filter.mp hMem).2 (by decide)
  obtain ⟨first, parts, hParts⟩ : ∃ first parts,
      (((dropGit (u :: rest)).rdropWhile isSeparator).splitOnP
        isSeparator).filter (fun part => !part.isEmpty) =
          (u :: first) :: parts := by
    obtain ⟨first, parts, hSplit⟩ := List.exists_cons_of_ne_nil
      (List.splitOnP_ne_nil isSeparator (text.rdropWhile isSeparator))
    refine ⟨first, parts.filter fun part => !part.isEmpty, ?_⟩
    rw [hText, rdropWhile_cons text hVisible,
      List.splitOnP_cons_eq_if_modifyHead, hVisible,
      if_neg Bool.false_ne_true, hSplit]
    rfl
  have hName : cloneName (u :: rest) =
      ([unit '-'].intercalate (((u :: first) :: parts).drop
        (((u :: first) :: parts).length - 2))).filter isTaskUnit := by
    rw [← hParts]
    rfl
  cases parts with
  | nil =>
      have hOne : cloneName (u :: rest) = u :: first.filter isTaskUnit := by
        rw [hName]
        show ([unit '-'].intercalate [u :: first]).filter isTaskUnit = _
        rw [List.intercalate_singleton, List.filter_cons_of_pos hKept]
      rw [hOne] at hSlash ⊢
      exact ⟨List.cons_ne_nil _ _, hSlash,
        fun hSame => hDot (List.cons.inj hSame).1,
        fun hSame => hDot (List.cons.inj hSame).1⟩
  | cons second parts =>
      obtain ⟨a, b, hJoin⟩ := join_lastTwo
        ((u :: first) :: second :: parts) (by simp)
      have hHyphen : unit '-' ∈ cloneName (u :: rest) := by
        rw [hName, hJoin]
        exact List.mem_filter.mpr
          ⟨List.mem_append_right a List.mem_cons_self, by decide⟩
      refine ⟨List.ne_nil_of_mem hHyphen, hSlash, ?_, ?_⟩
      · intro hSame
        rw [hSame] at hHyphen
        exact absurd hHyphen (by decide)
      · intro hSame
        rw [hSame] at hHyphen
        exact absurd hHyphen (by decide)

theorem resolveRepo_url {env : Env} {repo root : JsString}
    (hUrl : isUrl repo = true) (hRoot : reposRoot env = .ok root) :
    resolveRepo env repo = .ok ⟨repo, child root (cloneName repo), true⟩ := by
  have hSegment := isSegment_cloneName hUrl
  have hSome : repo ≠ [] := by
    rintro rfl
    exact absurd hUrl (by decide)
  rw [resolveRepo, if_neg hSome, if_pos hUrl]
  dsimp only
  rw [if_neg hSegment.1, hRoot]
  show Except.ok _ = _
  rw [resolve_child (normal_jailedRoot hRoot) hSegment]

theorem reposRoot_of_resolveRepo {env : Env} {repo : JsString} {r : Repo}
    (hUrl : isUrl repo = true) (h : resolveRepo env repo = .ok r) :
    ∃ root, reposRoot env = .ok root ∧
      r.baseDir = child root (cloneName repo) := by
  cases hRoot : reposRoot env with
  | ok root =>
      rw [resolveRepo_url hUrl hRoot] at h
      cases h
      exact ⟨root, rfl, rfl⟩
  | error message =>
      have hSome : repo ≠ [] := by
        rintro rfl
        exact absurd hUrl (by decide)
      rw [resolveRepo, if_neg hSome, if_pos hUrl] at h
      dsimp only at h
      rw [if_neg (isSegment_cloneName hUrl).1, hRoot] at h
      cases h

/-! ## The condition -/

end OpenApe.Ports.TaskFolders
