import OpenApe.Verified.GreedySplit
import OpenApe.Verified.Numerals
import OpenApe.Verified.RegExpSource

/-!
# Printed diffs (`apps/openape-git/server/utils/git-parse.ts`)

`parsePatch` reads a unified diff line by line, with the current file and two
line counters.  Beside it stands the printer: what git writes for a list of
changes when no path is quoted.
-/

namespace OpenApe.Ports.PatchText

open Verified.GreedySplit Verified.JsText Verified.Numerals
open Verified.IpLiteral (isDigit)
open Verified.Json (decimal)
open Verified.RegExpSource (dot)

/-! ## The source -/

inductive LineType where
  | add
  | del
  | ctx
  | hunk
  deriving DecidableEq

structure DiffLine where
  type : LineType
  text : JsString
  oldLine : Option Nat
  newLine : Option Nat
  deriving DecidableEq

structure DiffFile where
  path : JsString
  oldPath : Option JsString
  binary : Bool
  additions : Nat
  deletions : Nat
  lines : List DiffLine
  deriving DecidableEq

/-- What follows a text in front. -/
def after? (front text : JsString) : Option JsString :=
  if front.isPrefixOf text then some (text.drop front.length) else none

/-- `(?:,\d+)?` -/
def skipCount (text : JsString) : JsString :=
  match text with
  | [] => []
  | u :: rest =>
      if u = unit ',' ∧ rest.takeWhile isDigit ≠ [] then
        rest.dropWhile isDigit
      else u :: rest

/-- `HUNK_HEADER`, with `Number.parseInt` of its groups. -/
def hunkHeader? (raw : JsString) : Option (Nat × Nat) := do
  let text ← after? (js "@@ -") raw
  let (old, text) ← number? text
  let text ← after? (js " +") (skipCount text)
  let (new, text) ← number? text
  let _ ← after? (js " @@") (skipCount text)
  return (old, new)

/-- `/^diff --git a\/(.+) b\/(.+)$/` -/
def headerNames? (raw : JsString) : Option (JsString × JsString) := do
  let names ← after? (js "diff --git a/") raw
  if names.all dot then greedySplit (js " b/") names else none

/-- The file that a header line starts. -/
def fileOf (raw : JsString) : DiffFile :=
  match headerNames? raw with
  | some (old, new) =>
      ⟨new, if old = new then none else some old, false, 0, 0, []⟩
  | none => ⟨raw.drop (js "diff --git ").length, none, false, 0, 0, []⟩

/-- What is carried over the lines; the current file is the last one. -/
structure State where
  files : List DiffFile
  file : Option DiffFile
  oldLine : Nat
  newLine : Nat

def DiffFile.push (file : DiffFile) (line : DiffLine) : DiffFile :=
  { file with lines := file.lines ++ [line] }

/-- A line behind the first hunk header. -/
def contentLine (s : State) (file : DiffFile) (raw : JsString) : State :=
  match raw with
  | [] => s
  | u :: text =>
      if u = unit '+' then
        { s with
          file := some { file.push ⟨.add, text, none, some s.newLine⟩ with
            additions := file.additions + 1 }
          newLine := s.newLine + 1 }
      else if u = unit '-' then
        { s with
          file := some { file.push ⟨.del, text, some s.oldLine, none⟩ with
            deletions := file.deletions + 1 }
          oldLine := s.oldLine + 1 }
      else if u = unit ' ' then
        { s with
          file := some
            (file.push ⟨.ctx, text, some s.oldLine, some s.newLine⟩)
          oldLine := s.oldLine + 1
          newLine := s.newLine + 1 }
      else s

def parseLine (s : State) (raw : JsString) : State :=
  if (js "diff --git ").isPrefixOf raw then
    { s with
      files := s.files ++ s.file.toList
      file := some (fileOf raw) }
  else
    match s.file with
    | none => s
    | some file =>
        if (js "Binary files ").isPrefixOf raw ||
            (js "GIT binary patch").isPrefixOf raw then
          { s with file := some { file with binary := true } }
        else
          match hunkHeader? raw with
          | some (old, new) =>
              ⟨s.files, some (file.push ⟨.hunk, raw, none, none⟩), old, new⟩
          | none => if file.lines = [] then s else contentLine s file raw

def State.all (s : State) : List DiffFile := s.files ++ s.file.toList

def parsePatch (patch : JsString) : List DiffFile :=
  ((patch.splitOn (unit '\n')).foldl parseLine ⟨[], none, 0, 0⟩).all

/-! ## What git prints -/

/-- Text within a line. -/
structure LineText where
  units : JsString
  single : unit '\n' ∉ units

inductive Side where
  | context
  | added
  | removed
  deriving DecidableEq

/-- A line of a hunk; the marker follows a line without a line break. -/
structure HunkLine where
  side : Side
  text : LineText
  unfinished : Bool

structure Hunk where
  oldStart : Nat
  newStart : Nat
  heading : Option LineText
  lines : List HunkLine

inductive Mode where
  | regular
  | executable
  | link
  | submodule

inductive Status where
  | kept (mode : Mode)
  | changed (old new : Mode)
  | created (mode : Mode)
  | deleted (mode : Mode)

/-- A former path, with how similar the files are. -/
structure Rename where
  path : JsString
  named : path ≠ []
  similarity : Nat

/-- The abbreviated names of the two contents. -/
structure Index where
  old : LineText
  new : LineText

inductive Body where
  | text (hunks : List Hunk)
  | binary

structure Change where
  path : JsString
  named : path ≠ []
  status : Status
  renamed : Option Rename
  moved : ∀ r, renamed = some r → r.path ≠ path
  index : Option Index
  body : Body

def Side.sign : Side → CodeUnit
  | .context => unit ' '
  | .added => unit '+'
  | .removed => unit '-'

def HunkLine.printed (line : HunkLine) : List JsString :=
  (line.side.sign :: line.text.units) ::
    if line.unfinished then [js "\\ No newline at end of file"] else []

def HunkLine.inOld (line : HunkLine) : Bool := line.side != .added

def HunkLine.inNew (line : HunkLine) : Bool := line.side != .removed

/-- `start,count`, without the count where it is one. -/
def range (start count : Nat) : JsString :=
  decimal start ++ if count = 1 then [] else js "," ++ decimal count

/-- What stands behind the ranges. -/
def Hunk.tail (hunk : Hunk) : JsString :=
  match hunk.heading with
  | none => []
  | some heading => js " " ++ heading.units

def Hunk.header (hunk : Hunk) : JsString :=
  js "@@ -" ++ (range hunk.oldStart (hunk.lines.countP HunkLine.inOld) ++
    (js " +" ++ (range hunk.newStart (hunk.lines.countP HunkLine.inNew) ++
      (js " @@" ++ hunk.tail))))

def Hunk.printed (hunk : Hunk) : List JsString :=
  hunk.header :: hunk.lines.flatMap HunkLine.printed

def Mode.text : Mode → JsString
  | .regular => js "100644"
  | .executable => js "100755"
  | .link => js "120000"
  | .submodule => js "160000"

def Status.printed : Status → List JsString
  | .kept _ => []
  | .changed old new =>
      [js "old mode " ++ old.text, js "new mode " ++ new.text]
  | .created mode => [js "new file mode " ++ mode.text]
  | .deleted mode => [js "deleted file mode " ++ mode.text]

/-- The path on the old side. -/
def Change.oldName (c : Change) : JsString :=
  (c.renamed.map Rename.path).getD c.path

def Change.header (c : Change) : JsString :=
  js "diff --git a/" ++ (c.oldName ++ (js " b/" ++ c.path))

def Change.renameLines (c : Change) : List JsString :=
  match c.renamed with
  | none => []
  | some r =>
      [js "similarity index " ++ decimal r.similarity ++ js "%",
        js "rename from " ++ r.path, js "rename to " ++ c.path]

def Change.indexLines (c : Change) : List JsString :=
  match c.index with
  | none => []
  | some index =>
      [js "index " ++ (index.old.units ++ (js ".." ++ (index.new.units ++
        match c.status with
        | .kept mode => js " " ++ mode.text
        | _ => [])))]

def devNull : JsString := js "/dev/null"

def Change.oldLabel (c : Change) : JsString :=
  match c.status with
  | .created _ => devNull
  | _ => js "a/" ++ c.oldName

def Change.newLabel (c : Change) : JsString :=
  match c.status with
  | .deleted _ => devNull
  | _ => js "b/" ++ c.path

/-- A label with a blank is closed by a tabulator. -/
def closed (label : JsString) : JsString :=
  label ++ if unit ' ' ∈ label then [unit '\t'] else []

def Change.bodyLines (c : Change) : List JsString :=
  match c.body with
  | .binary =>
      [js "Binary files " ++ (c.oldLabel ++ (js " and " ++ (c.newLabel ++
        js " differ")))]
  | .text [] => []
  | .text hunks =>
      (js "--- " ++ closed c.oldLabel) :: (js "+++ " ++ closed c.newLabel) ::
        hunks.flatMap Hunk.printed

/-- What stands between the header and the body. -/
def Change.extraLines (c : Change) : List JsString :=
  c.status.printed ++ (c.renameLines ++ c.indexLines)

def Change.printed (c : Change) : List JsString :=
  c.header :: (c.extraLines ++ c.bodyLines)

def print (changes : List Change) : JsString :=
  (changes.flatMap Change.printed).flatMap (· ++ [unit '\n'])

/-! ## What they say -/

def Side.type : Side → LineType
  | .context => .ctx
  | .added => .add
  | .removed => .del

/-- A line numbered by the lines before it. -/
def Hunk.entry (hunk : Hunk) (before : List HunkLine) (line : HunkLine) :
    DiffLine where
  type := line.side.type
  text := line.text.units
  oldLine := if line.inOld then
      some (hunk.oldStart + before.countP HunkLine.inOld) else none
  newLine := if line.inNew then
      some (hunk.newStart + before.countP HunkLine.inNew) else none

def Hunk.entries (hunk : Hunk) : List DiffLine :=
  ⟨.hunk, hunk.header, none, none⟩ :: hunk.lines.zipIdx.map fun line =>
    hunk.entry (hunk.lines.take line.2) line.1

def Change.hunks (c : Change) : List Hunk :=
  match c.body with
  | .text hunks => hunks
  | .binary => []

/-- The lines of one side in all hunks. -/
def Change.count (c : Change) (side : Side) : Nat :=
  (c.hunks.flatMap Hunk.lines).countP fun line => line.side == side

def Change.file (c : Change) : DiffFile where
  path := c.path
  oldPath := c.renamed.map Rename.path
  binary := match c.body with
    | .text _ => false
    | .binary => true
  additions := c.count .added
  deletions := c.count .removed
  lines := c.hunks.flatMap Hunk.entries

/-- The parser gives back what was printed. -/
def ReadsBack (changes : List Change) : Prop :=
  parsePatch (print changes) = changes.map Change.file

/-- No line terminator in the paths, and no other place in the new path that
could separate the two names. -/
structure Readable (c : Change) : Prop where
  oldLine : ∀ u ∈ c.oldName, dot u = true
  newLine : ∀ u ∈ c.path, dot u = true
  separate : ∀ x y, c.path = x ++ (js " b/" ++ y) → y = []

end OpenApe.Ports.PatchText
