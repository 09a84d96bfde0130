import OpenApe.Ports.PatchText
import OpenApe.Verified.Separators

/-!
# A printed diff is read back

No line of a hunk and no header line is taken for another kind.  What can go
wrong is the first line of a file, which holds both paths: `readsBack_iff` says
for which paths it is split where it was joined.
-/

namespace OpenApe.Ports.PatchRoundTrip

open PatchText
open Verified.GreedySplit Verified.JsText Verified.Numerals Verified.Separators
open Verified.IpLiteral (isDigit)
open Verified.Json (decimal)
open Verified.RegExpSource (dot)

/-! ## Hunk headers -/

theorem after?_append (front text : JsString) :
    after? front (front ++ text) = some text := by
  have hPrefix : front.isPrefixOf (front ++ text) = true :=
    List.isPrefixOf_iff_prefix.mpr (List.prefix_append front text)
  rw [after?, if_pos hPrefix, List.drop_left]

/-- The count behind a number is skipped. -/
theorem skipCount_range (count : Nat) {rest : JsString}
    (hRest : ∀ u, rest.head? = some u → isDigit u = false ∧ u ≠ unit ',') :
    skipCount ((if count = 1 then [] else js "," ++ decimal count) ++ rest) =
      rest := by
  split
  · rw [List.nil_append]
    cases rest with
    | nil => rfl
    | cons u rest =>
        rw [skipCount]
        exact if_neg fun h => (hRest u rfl).2 h.1
  · obtain ⟨hTake, hDrop⟩ :=
      digits_decimal count fun u hu => (hRest u hu).1
    show skipCount (unit ',' :: (decimal count ++ rest)) = rest
    rw [skipCount, hTake, if_pos ⟨rfl, decimal_ne_nil count⟩, hDrop]

theorem number?_range (start count : Nat) {rest : JsString}
    (hRest : ∀ u, rest.head? = some u → isDigit u = false ∧ u ≠ unit ',') :
    ∃ text, number? (range start count ++ rest) = some (start, text) ∧
      skipCount text = rest := by
  have hHead : ∀ u, ((if count = 1 then [] else js "," ++ decimal count) ++
      rest).head? = some u → isDigit u = false := by
    intro u hu
    split at hu
    · exact (hRest u hu).1
    · rw [← Option.some.inj hu]
      decide
  refine ⟨_, ?_, skipCount_range count hRest⟩
  rw [range, List.append_assoc]
  exact number?_decimal start hHead

/-- The two numbers of a printed header. -/
theorem hunkHeader?_header (hunk : Hunk) :
    hunkHeader? hunk.header = some (hunk.oldStart, hunk.newStart) := by
  have hPlus : ∀ (text : JsString) (u : CodeUnit),
      (js " +" ++ text).head? = some u → isDigit u = false ∧ u ≠ unit ',' := by
    intro text u hu
    rw [← Option.some.inj hu]
    decide
  have hEnd : ∀ (text : JsString) (u : CodeUnit),
      (js " @@" ++ text).head? = some u → isDigit u = false ∧ u ≠ unit ',' := by
    intro text u hu
    rw [← Option.some.inj hu]
    decide
  rw [hunkHeader?, Hunk.header]
  obtain ⟨new, hNew, hNewRest⟩ := number?_range hunk.newStart
    (hunk.lines.countP HunkLine.inNew) (hEnd hunk.tail)
  obtain ⟨old, hOld, hOldRest⟩ := number?_range hunk.oldStart
    (hunk.lines.countP HunkLine.inOld) (hPlus (range hunk.newStart
      (hunk.lines.countP HunkLine.inNew) ++ (js " @@" ++ hunk.tail)))
  rw [after?_append, Option.bind_eq_bind, Option.bind_some, hOld,
    Option.bind_eq_bind, Option.bind_some]
  dsimp only
  rw [hOldRest, after?_append, Option.bind_some, hNew, Option.bind_some]
  dsimp only
  rw [hNewRest, after?_append]
  rfl

/-! ## Lines that start no file and no hunk -/

/-- The units that lines of another kind start with. -/
def Ordinary (u : CodeUnit) : Prop :=
  u ≠ unit 'd' ∧ u ≠ unit 'B' ∧ u ≠ unit 'G' ∧ u ≠ unit '@'

instance (u : CodeUnit) : Decidable (Ordinary u) :=
  inferInstanceAs (Decidable (_ ∧ _))

theorem isPrefixOf_cons_ne {u v : CodeUnit} (h : v ≠ u)
    (front text : JsString) :
    (v :: front).isPrefixOf (u :: text) = false := by
  rw [List.isPrefixOf_cons_cons, beq_false_of_ne h, Bool.false_and]

theorem hunkHeader?_eq_none {raw : JsString}
    (h : (js "@@ -").isPrefixOf raw = false) : hunkHeader? raw = none := by
  rw [hunkHeader?, after?, if_neg (Bool.eq_false_iff.mp h)]
  rfl

/-- What is none of the special lines. -/
theorem parseLine_of_not {s : State} {file : DiffFile}
    (hFile : s.file = some file) {raw : JsString}
    (hHeader : (js "diff --git ").isPrefixOf raw = false)
    (hBinary : (js "Binary files ").isPrefixOf raw = false)
    (hPatch : (js "GIT binary patch").isPrefixOf raw = false)
    (hHunk : (js "@@ -").isPrefixOf raw = false) :
    parseLine s raw =
      if file.lines = [] then s else contentLine s file raw := by
  rw [parseLine, if_neg (Bool.eq_false_iff.mp hHeader), hFile]
  dsimp only
  rw [hBinary, hPatch, hunkHeader?_eq_none hHunk]
  rfl

theorem parseLine_ordinary {s : State} {file : DiffFile}
    (hFile : s.file = some file) {u : CodeUnit} (hu : Ordinary u)
    (text : JsString) :
    parseLine s (u :: text) =
      if file.lines = [] then s else contentLine s file (u :: text) := by
  obtain ⟨hd, hB, hG, hAt⟩ := hu
  exact parseLine_of_not hFile (isPrefixOf_cons_ne hd.symm _ _)
    (isPrefixOf_cons_ne hB.symm _ _) (isPrefixOf_cons_ne hG.symm _ _)
    (isPrefixOf_cons_ne hAt.symm _ _)

/-! ## Lines of a hunk -/

/-- A file with more lines. -/
def extend (file : DiffFile) (additions deletions : Nat)
    (lines : List DiffLine) : DiffFile :=
  { file with
    additions := file.additions + additions
    deletions := file.deletions + deletions
    lines := file.lines ++ lines }

theorem extend_extend (file : DiffFile) (a d a' d' : Nat)
    (lines lines' : List DiffLine) :
    extend (extend file a d lines) a' d' lines' =
      extend file (a + a') (d + d') (lines ++ lines') := by
  simp only [extend, Nat.add_assoc, List.append_assoc]

/-- The lines of one side. -/
def countOf (side : Side) (lines : List HunkLine) : Nat :=
  lines.countP fun line => line.side == side

theorem countOf_append (side : Side) (front back : List HunkLine) :
    countOf side (front ++ back) = countOf side front + countOf side back :=
  List.countP_append

/-- One line, numbered by the counters. -/
theorem parseLine_content {s : State} {file : DiffFile}
    (hFile : s.file = some file) (hLines : file.lines ≠ [])
    (line : HunkLine) :
    parseLine s (line.side.sign :: line.text.units) =
      { files := s.files
        file := some (extend file (countOf .added [line])
          (countOf .removed [line])
          [⟨line.side.type, line.text.units,
            if line.inOld then some s.oldLine else none,
            if line.inNew then some s.newLine else none⟩])
        oldLine := s.oldLine + [line].countP HunkLine.inOld
        newLine := s.newLine + [line].countP HunkLine.inNew } := by
  have hSign : Ordinary line.side.sign := by
    cases line.side <;> decide
  rw [parseLine_ordinary hFile hSign, if_neg hLines]
  obtain ⟨side, text, unfinished⟩ := line
  cases side with
  | context => rfl
  | added => rfl
  | removed => rfl

/-- The marker of an unfinished line is passed over. -/
theorem parseLine_marker {s : State} {file : DiffFile}
    (hFile : s.file = some file) :
    parseLine s (js "\\ No newline at end of file") = s := by
  have hOrdinary : Ordinary (unit '\\') := by decide
  have hLine := parseLine_ordinary hFile hOrdinary
    (js " No newline at end of file")
  refine Eq.trans hLine ?_
  split
  · rfl
  · rfl

theorem foldl_printedLine {s : State} {file : DiffFile}
    (hFile : s.file = some file) (hLines : file.lines ≠ [])
    (line : HunkLine) :
    line.printed.foldl parseLine s =
      parseLine s (line.side.sign :: line.text.units) := by
  rw [HunkLine.printed, List.foldl_cons]
  split
  · have hNext := parseLine_content hFile hLines line
    rw [List.foldl_cons, List.foldl_nil, hNext]
    exact parseLine_marker rfl
  · rfl

/-- The lines of a hunk from some line on. -/
theorem foldl_hunkLines (hunk : Hunk) {before rest : List HunkLine}
    (hSplit : hunk.lines = before ++ rest) (files : List DiffFile)
    {file : DiffFile} (hLines : file.lines ≠ []) :
    (rest.flatMap HunkLine.printed).foldl parseLine
        ⟨files, some file,
          hunk.oldStart + before.countP HunkLine.inOld,
          hunk.newStart + before.countP HunkLine.inNew⟩ =
      ⟨files,
        some (extend file (countOf .added rest) (countOf .removed rest)
          ((rest.zipIdx before.length).map fun line =>
            hunk.entry (hunk.lines.take line.2) line.1)),
        hunk.oldStart + hunk.lines.countP HunkLine.inOld,
        hunk.newStart + hunk.lines.countP HunkLine.inNew⟩ := by
  induction rest generalizing before file with
  | nil =>
      rw [List.append_nil] at hSplit
      rw [hSplit]
      simp [extend, countOf]
  | cons line rest ih =>
      have hNext : hunk.lines = (before ++ [line]) ++ rest := by
        rw [hSplit, List.append_assoc, List.singleton_append]
      have hTake : hunk.lines.take before.length = before := by
        rw [hSplit, List.take_left]
      have hMore : (extend file (countOf .added [line])
          (countOf .removed [line])
          [hunk.entry before line]).lines ≠ [] :=
        List.append_ne_nil_of_left_ne_nil hLines _
      have hStep := ih hNext hMore
      rw [List.countP_append, List.countP_append, ← Nat.add_assoc,
        ← Nat.add_assoc, List.length_append, List.length_singleton] at hStep
      rw [List.flatMap_cons, List.foldl_append,
        foldl_printedLine rfl hLines, parseLine_content rfl hLines]
      refine Eq.trans hStep ?_
      rw [extend_extend, ← countOf_append, ← countOf_append,
        List.zipIdx_cons, List.map_cons, hTake]
      rfl

/-- A whole hunk. -/
theorem foldl_hunk (hunk : Hunk) (s : State) {file : DiffFile}
    (hFile : s.file = some file) :
    ∃ old new, hunk.printed.foldl parseLine s =
      ⟨s.files,
        some (extend file (countOf .added hunk.lines)
          (countOf .removed hunk.lines) hunk.entries), old, new⟩ := by
  have hHeader : parseLine s hunk.header =
      ⟨s.files, some (file.push ⟨.hunk, hunk.header, none, none⟩),
        hunk.oldStart, hunk.newStart⟩ := by
    rw [parseLine, if_neg (by exact Bool.false_ne_true), hFile]
    dsimp only
    rw [if_neg (by exact Bool.false_ne_true), hunkHeader?_header]
  have hLines : (file.push ⟨.hunk, hunk.header, none, none⟩).lines ≠ [] :=
    List.append_ne_nil_of_right_ne_nil _ (List.cons_ne_nil _ _)
  have hAll : hunk.lines = [] ++ hunk.lines := rfl
  have hRest := foldl_hunkLines hunk hAll s.files hLines
  refine ⟨hunk.oldStart + hunk.lines.countP HunkLine.inOld,
    hunk.newStart + hunk.lines.countP HunkLine.inNew, ?_⟩
  have hPush : file.push ⟨.hunk, hunk.header, none, none⟩ =
      extend file 0 0 [⟨.hunk, hunk.header, none, none⟩] := rfl
  rw [Hunk.printed, List.foldl_cons, hHeader]
  refine Eq.trans hRest ?_
  rw [hPush, extend_extend, Nat.zero_add, Nat.zero_add]
  rfl

/-- Hunk after hunk. -/
theorem foldl_hunks (hunks : List Hunk) (s : State) {file : DiffFile}
    (hFile : s.file = some file) :
    ∃ old new, (hunks.flatMap Hunk.printed).foldl parseLine s =
      ⟨s.files,
        some (extend file (countOf .added (hunks.flatMap Hunk.lines))
          (countOf .removed (hunks.flatMap Hunk.lines))
          (hunks.flatMap Hunk.entries)), old, new⟩ := by
  induction hunks generalizing s file with
  | nil =>
      obtain ⟨files, current, old, new⟩ := s
      refine ⟨old, new, ?_⟩
      rw [show current = some file from hFile]
      simp [extend, countOf]
  | cons hunk hunks ih =>
      obtain ⟨old, new, hFirst⟩ := foldl_hunk hunk s hFile
      obtain ⟨old', new', hRest⟩ := ih ⟨s.files, _, old, new⟩ rfl
      refine ⟨old', new', ?_⟩
      rw [List.flatMap_cons, List.foldl_append, hFirst, hRest, extend_extend,
        ← countOf_append, ← countOf_append, List.flatMap_cons,
        List.flatMap_cons]

/-! ## A file -/

/-- What is passed over in front of the first hunk. -/
def Passed (raw : JsString) : Prop :=
  ∀ s file, s.file = some file → file.lines = [] → parseLine s raw = s

theorem passed_of_ordinary {u : CodeUnit} (hu : Ordinary u) (text : JsString) :
    Passed (u :: text) := by
  intro s file hFile hLines
  rw [parseLine_ordinary hFile hu, if_pos hLines]

theorem passed_status (status : Status) :
    ∀ raw ∈ status.printed, Passed raw := by
  cases status with
  | kept mode => exact List.forall_mem_nil _
  | changed old new =>
      refine List.forall_mem_cons.mpr ⟨?_, List.forall_mem_singleton.mpr ?_⟩
      · exact passed_of_ordinary (by decide : Ordinary (unit 'o')) _
      · exact passed_of_ordinary (by decide : Ordinary (unit 'n')) _
  | created mode =>
      refine List.forall_mem_singleton.mpr ?_
      exact passed_of_ordinary (by decide : Ordinary (unit 'n')) _
  | deleted mode =>
      -- it starts like the line of a file
      refine List.forall_mem_singleton.mpr fun s file hFile hLines => ?_
      have hLine : parseLine s (js "deleted file mode " ++ mode.text) =
          if file.lines = [] then s
          else contentLine s file (js "deleted file mode " ++ mode.text) :=
        parseLine_of_not hFile rfl rfl rfl rfl
      rw [hLine, if_pos hLines]

theorem passed_renameLines (c : Change) :
    ∀ raw ∈ c.renameLines, Passed raw := by
  rw [Change.renameLines]
  cases c.renamed with
  | none => exact List.forall_mem_nil _
  | some r =>
      refine List.forall_mem_cons.mpr ⟨?_, List.forall_mem_cons.mpr
        ⟨?_, List.forall_mem_singleton.mpr ?_⟩⟩
      · rw [List.append_assoc]
        exact passed_of_ordinary (by decide : Ordinary (unit 's')) _
      · exact passed_of_ordinary (by decide : Ordinary (unit 'r')) _
      · exact passed_of_ordinary (by decide : Ordinary (unit 'r')) _

theorem passed_indexLines (c : Change) :
    ∀ raw ∈ c.indexLines, Passed raw := by
  rw [Change.indexLines]
  cases c.index with
  | none => exact List.forall_mem_nil _
  | some index =>
      refine List.forall_mem_singleton.mpr ?_
      exact passed_of_ordinary (by decide : Ordinary (unit 'i')) _

theorem passed_extraLines (c : Change) :
    ∀ raw ∈ c.extraLines, Passed raw := by
  intro raw hRaw
  rw [Change.extraLines, List.mem_append, List.mem_append] at hRaw
  rcases hRaw with hStatus | hRename | hIndex
  · exact passed_status c.status raw hStatus
  · exact passed_renameLines c raw hRename
  · exact passed_indexLines c raw hIndex

theorem foldl_passed {lines : List JsString} (h : ∀ raw ∈ lines, Passed raw)
    {s : State} {file : DiffFile} (hFile : s.file = some file)
    (hLines : file.lines = []) : lines.foldl parseLine s = s := by
  induction lines with
  | nil => rfl
  | cons raw lines ih =>
      obtain ⟨hFirst, hRest⟩ := List.forall_mem_cons.mp h
      rw [List.foldl_cons, hFirst s file hFile hLines, ih hRest]

/-- The file of a change, as its header line was read. -/
def readFile (c : Change) : DiffFile :=
  { c.file with
    path := (fileOf c.header).path
    oldPath := (fileOf c.header).oldPath }

theorem fileOf_fresh (raw : JsString) :
    fileOf raw =
      ⟨(fileOf raw).path, (fileOf raw).oldPath, false, 0, 0, []⟩ := by
  unfold fileOf
  split
  · rfl
  · rfl

/-- The body of a change. -/
theorem foldl_bodyLines (c : Change) (s : State)
    (hFile : s.file = some (fileOf c.header)) :
    ∃ old new, c.bodyLines.foldl parseLine s =
      ⟨s.files, some (readFile c), old, new⟩ := by
  have hFresh := fileOf_fresh c.header
  have hLines : (fileOf c.header).lines = [] := by rw [hFresh]
  rw [Change.bodyLines]
  cases hBody : c.body with
  | binary =>
      have hFields : readFile c = { fileOf c.header with binary := true } := by
        rw [readFile, Change.file, Change.count, Change.count, Change.hunks,
          hBody, hFresh]
        rfl
      refine ⟨s.oldLine, s.newLine, ?_⟩
      dsimp only
      rw [List.foldl_cons, List.foldl_nil, parseLine,
        if_neg (by exact Bool.false_ne_true), hFile, hFields]
      rfl
  | text hunks =>
      have hFields : readFile c = extend (fileOf c.header)
          (countOf .added (hunks.flatMap Hunk.lines))
          (countOf .removed (hunks.flatMap Hunk.lines))
          (hunks.flatMap Hunk.entries) := by
        rw [readFile, Change.file, Change.count, Change.count, Change.hunks,
          hBody, hFresh]
        simp only [extend, Nat.zero_add, List.nil_append]
        rfl
      obtain ⟨old, new, hHunks⟩ := foldl_hunks hunks s hFile
      rw [← hFields] at hHunks
      cases hunks with
      | nil => exact ⟨old, new, hHunks⟩
      | cons hunk hunks =>
          refine ⟨old, new, ?_⟩
          have hMinus : Passed (js "--- " ++ closed c.oldLabel) :=
            passed_of_ordinary (by decide : Ordinary (unit '-')) _
          have hPlus : Passed (js "+++ " ++ closed c.newLabel) :=
            passed_of_ordinary (by decide : Ordinary (unit '+')) _
          dsimp only
          rw [List.foldl_cons, hMinus s _ hFile hLines, List.foldl_cons,
            hPlus s _ hFile hLines]
          exact hHunks

/-- The lines of a change are read as its file, whatever came before. -/
theorem foldl_printed (c : Change) (s : State) :
    ∃ old new, c.printed.foldl parseLine s =
      ⟨s.all, some (readFile c), old, new⟩ := by
  have hHeader : parseLine s c.header =
      ⟨s.all, some (fileOf c.header), s.oldLine, s.newLine⟩ := by
    rw [parseLine, if_pos (by rfl)]
    rfl
  have hLines : (fileOf c.header).lines = [] := by rw [fileOf_fresh]
  rw [Change.printed, List.foldl_cons, hHeader, List.foldl_append,
    foldl_passed (passed_extraLines c) rfl hLines]
  exact foldl_bodyLines c _ rfl

/-- One file for each change, in order. -/
theorem foldl_changes (changes : List Change) (s : State) :
    ((changes.flatMap Change.printed).foldl parseLine s).all =
      s.all ++ changes.map readFile := by
  induction changes generalizing s with
  | nil => exact (List.append_nil _).symm
  | cons c changes ih =>
      obtain ⟨old, new, hFirst⟩ := foldl_printed c s
      rw [List.flatMap_cons, List.foldl_append, hFirst, ih, List.map_cons]
      show s.all ++ [readFile c] ++ _ = _
      rw [List.append_assoc, List.singleton_append]

/-! ## The lines of the text -/

/-- A text within a line. -/
def Single (text : JsString) : Prop := unit '\n' ∉ text

instance (text : JsString) : Decidable (Single text) :=
  inferInstanceAs (Decidable (_ ∉ _))

theorem Single.append {front back : JsString} (hFront : Single front)
    (hBack : Single back) : Single (front ++ back) := fun h =>
  (List.mem_append.mp h).elim hFront hBack

theorem single_decimal (n : Nat) : Single (decimal n) := by
  intro h
  have hDigit := isDigit_of_mem_decimal h
  revert hDigit
  decide

theorem single_range (start count : Nat) : Single (range start count) := by
  refine (single_decimal start).append ?_
  split
  · decide
  · exact Single.append (by decide) (single_decimal count)

theorem single_hunk (hunk : Hunk) : ∀ raw ∈ hunk.printed, Single raw := by
  have hTail : Single hunk.tail := by
    rw [Hunk.tail]
    cases hunk.heading with
    | none => decide
    | some heading => exact Single.append (by decide) heading.single
  refine List.forall_mem_cons.mpr ⟨?_, fun raw hRaw => ?_⟩
  · exact Single.append (by decide) (Single.append (single_range _ _)
      (Single.append (by decide) (Single.append (single_range _ _)
        (Single.append (by decide) hTail))))
  · obtain ⟨line, -, hLine⟩ := List.mem_flatMap.mp hRaw
    rcases List.mem_cons.mp hLine with rfl | hMarker
    · intro hBreak
      rcases List.mem_cons.mp hBreak with hSign | hText
      · revert hSign
        cases line.side <;> decide
      · exact line.text.single hText
    · split at hMarker
      · rw [List.mem_singleton.mp hMarker]
        decide
      · cases hMarker

theorem single_mode (mode : Mode) : Single mode.text := by
  cases mode <;> decide

section Lines

variable {c : Change} (hOld : Single c.oldName) (hNew : Single c.path)
include hOld hNew

theorem single_labels : Single c.oldLabel ∧ Single c.newLabel := by
  constructor
  · rw [Change.oldLabel]
    split
    · decide
    · exact Single.append (by decide) hOld
  · rw [Change.newLabel]
    split
    · decide
    · exact Single.append (by decide) hNew

theorem single_extraLines : ∀ raw ∈ c.extraLines, Single raw := by
  intro raw hRaw
  rw [Change.extraLines, List.mem_append, List.mem_append] at hRaw
  rcases hRaw with hStatus | hRename | hIndex
  · revert raw
    cases c.status with
    | kept mode => exact List.forall_mem_nil _
    | changed old new =>
        exact List.forall_mem_cons.mpr
          ⟨Single.append (by decide) (single_mode old),
            List.forall_mem_singleton.mpr
              (Single.append (by decide) (single_mode new))⟩
    | created mode =>
        exact List.forall_mem_singleton.mpr
          (Single.append (by decide) (single_mode mode))
    | deleted mode =>
        exact List.forall_mem_singleton.mpr
          (Single.append (by decide) (single_mode mode))
  · rw [Change.renameLines] at hRename
    cases hMoved : c.renamed with
    | none =>
        rw [hMoved] at hRename
        cases hRename
    | some r =>
        have hFormer : Single r.path := by
          rw [Change.oldName, hMoved] at hOld
          exact hOld
        rw [hMoved] at hRename
        revert raw
        exact List.forall_mem_cons.mpr ⟨Single.append
          (Single.append (by decide) (single_decimal r.similarity))
            (by decide), List.forall_mem_cons.mpr
          ⟨Single.append (by decide) hFormer, List.forall_mem_singleton.mpr
            (Single.append (by decide) hNew)⟩⟩
  · rw [Change.indexLines] at hIndex
    cases hNames : c.index with
    | none =>
        rw [hNames] at hIndex
        cases hIndex
    | some index =>
        rw [hNames] at hIndex
        rw [List.mem_singleton.mp hIndex]
        refine Single.append (by decide) (Single.append index.old.single
          (Single.append (by decide) (Single.append index.new.single ?_)))
        split
        · exact Single.append (by decide) (single_mode _)
        · decide

theorem single_bodyLines : ∀ raw ∈ c.bodyLines, Single raw := by
  obtain ⟨hOldLabel, hNewLabel⟩ := single_labels hOld hNew
  have hClosed : ∀ label, Single label → Single (closed label) := by
    intro label hLabel
    refine hLabel.append ?_
    split
    · decide
    · decide
  rw [Change.bodyLines]
  split
  · exact List.forall_mem_singleton.mpr (Single.append (by decide)
      (hOldLabel.append (Single.append (by decide)
        (hNewLabel.append (by decide)))))
  · exact List.forall_mem_nil _
  · refine List.forall_mem_cons.mpr
      ⟨Single.append (by decide) (hClosed _ hOldLabel),
        List.forall_mem_cons.mpr
          ⟨Single.append (by decide) (hClosed _ hNewLabel), ?_⟩⟩
    intro raw hRaw
    obtain ⟨hunk, -, hMem⟩ := List.mem_flatMap.mp hRaw
    exact single_hunk hunk raw hMem

/-- With paths within a line, so is every line. -/
theorem single_printed : ∀ raw ∈ c.printed, Single raw := by
  refine List.forall_mem_cons.mpr ⟨?_, fun raw hRaw => ?_⟩
  · exact Single.append (by decide)
      (hOld.append (Single.append (by decide) hNew))
  · rcases List.mem_append.mp hRaw with hExtra | hBody
    · exact single_extraLines hOld hNew raw hExtra
    · exact single_bodyLines hOld hNew raw hBody

end Lines

theorem parseLine_nil (s : State) : parseLine s [] = s := by
  cases hFile : s.file with
  | none =>
      rw [parseLine, hFile]
      rfl
  | some file =>
      have hLine : parseLine s [] =
          if file.lines = [] then s else contentLine s file [] :=
        parseLine_of_not hFile rfl rfl rfl rfl
      rw [hLine]
      exact ite_self s

/-- Where no path is broken, each change is read as one file. -/
theorem parsePatch_print {changes : List Change}
    (h : ∀ c ∈ changes, Single c.oldName ∧ Single c.path) :
    parsePatch (print changes) = changes.map readFile := by
  have hLines : ∀ raw ∈ changes.flatMap Change.printed, unit '\n' ∉ raw := by
    intro raw hRaw
    obtain ⟨c, hc, hMem⟩ := List.mem_flatMap.mp hRaw
    exact single_printed (h c hc).1 (h c hc).2 raw hMem
  rw [parsePatch, print, splitOn_flatMap hLines, List.foldl_append,
    List.foldl_cons, List.foldl_nil, parseLine_nil, foldl_changes]
  rfl

/-! ## The first line of a file -/

theorem oldName_ne_nil (c : Change) : c.oldName ≠ [] := by
  rw [Change.oldName]
  cases c.renamed with
  | none => exact c.named
  | some r => exact r.named

theorem headerNames?_header (c : Change) :
    headerNames? c.header =
      if (c.oldName ++ (js " b/" ++ c.path)).all dot then
        greedySplit (js " b/") (c.oldName ++ (js " b/" ++ c.path))
      else none := by
  rw [headerNames?, Change.header, after?_append]
  rfl

/-- A later place of the separator lies within the new path. -/
theorem later_of_splitsAt {old new x y : JsString}
    (h : SplitsAt (js " b/") (old ++ (js " b/" ++ new)) x y)
    (hLater : old.length < x.length) :
    ∃ z, new = z ++ (js " b/" ++ y) := by
  obtain ⟨hText, -, -⟩ := h
  obtain ⟨rest, rfl, hRest⟩ : ∃ rest, x = old ++ rest ∧
      js " b/" ++ new = rest ++ (js " b/" ++ y) := by
    rcases List.append_eq_append_iff.mp hText with
      ⟨rest, hx, hRest⟩ | ⟨rest, hOld, -⟩
    · exact ⟨rest, hx, hRest⟩
    · rw [hOld, List.length_append] at hLater
      omega
  have hUnits : ∀ text : JsString,
      js " b/" ++ text = unit ' ' :: unit 'b' :: unit '/' :: text :=
    fun _ => rfl
  rw [hUnits, hUnits] at hRest
  match rest with
  | [] =>
      rw [List.append_nil] at hLater
      exact absurd hLater (Nat.lt_irrefl _)
  | [u] => exact absurd (List.cons.inj (List.cons.inj hRest).2).1 (by decide)
  | [u, v] =>
      have hThird := (List.cons.inj (List.cons.inj
        (List.cons.inj hRest).2).2).1
      exact absurd hThird (by decide)
  | u :: v :: w :: z =>
      refine ⟨z, ?_⟩
      rw [hUnits]
      exact (List.cons.inj (List.cons.inj (List.cons.inj hRest).2).2).2

/-- The two paths are told apart if and only if they are readable. -/
theorem headerNames?_iff (c : Change) :
    headerNames? c.header = some (c.oldName, c.path) ↔ Readable c := by
  have hHere : SplitsAt (js " b/") (c.oldName ++ (js " b/" ++ c.path))
      c.oldName c.path := ⟨rfl, oldName_ne_nil c, c.named⟩
  have hAll : (c.oldName ++ (js " b/" ++ c.path)).all dot = true ↔
      (∀ u ∈ c.oldName, dot u = true) ∧ ∀ u ∈ c.path, dot u = true := by
    have hWord : (js " b/").all dot = true := by decide
    rw [List.all_append, List.all_append, hWord, Bool.true_and,
      Bool.and_eq_true, List.all_eq_true, List.all_eq_true]
  rw [headerNames?_header]
  constructor
  · intro h
    split at h
    · rename_i hDots
      obtain ⟨hOld, hNew⟩ := hAll.mp hDots
      obtain ⟨-, hLast⟩ := greedySplit_eq_some.mp h
      refine ⟨hOld, hNew, fun x y hPath => ?_⟩
      by_contra hRest
      have hLater : SplitsAt (js " b/") (c.oldName ++ (js " b/" ++ c.path))
          (c.oldName ++ (js " b/" ++ x)) y := by
        refine ⟨?_, List.append_ne_nil_of_left_ne_nil
          (oldName_ne_nil c) _, hRest⟩
        rw [hPath]
        simp only [List.append_assoc]
      have hLength := hLast _ _ hLater
      have hWord : (js " b/").length = 3 := rfl
      rw [List.length_append, List.length_append, hWord] at hLength
      omega
    · cases h
  · rintro ⟨hOld, hNew, hSeparate⟩
    rw [if_pos (hAll.mpr ⟨hOld, hNew⟩), greedySplit_eq_some]
    refine ⟨hHere, fun x y hOther => ?_⟩
    by_contra hLonger
    obtain ⟨z, hPath⟩ := later_of_splitsAt hOther (Nat.not_le.mp hLonger)
    exact hOther.2.2 (hSeparate z y hPath)

/-- A readable change is read as it is. -/
theorem readFile_of_readable {c : Change} (h : Readable c) :
    readFile c = c.file := by
  have hNames := (headerNames?_iff c).mpr h
  have hFile : (fileOf c.header).path = c.path ∧
      (fileOf c.header).oldPath = c.renamed.map Rename.path := by
    rw [fileOf, hNames]
    refine ⟨rfl, ?_⟩
    show (if c.oldName = c.path then none else some c.oldName) = _
    rw [Change.oldName]
    cases hMoved : c.renamed with
    | none => exact if_pos rfl
    | some r => exact if_neg (c.moved r hMoved)
  rw [readFile, hFile.1, hFile.2]
  rfl

/-- The right new path is read only from readable paths. -/
theorem readable_of_path {c : Change}
    (h : (fileOf c.header).path = c.path) : Readable c := by
  rw [← headerNames?_iff]
  rw [fileOf] at h
  cases hNames : headerNames? c.header with
  | none =>
      rw [hNames] at h
      have hDrop : c.header.drop (js "diff --git ").length =
          js "a/" ++ (c.oldName ++ (js " b/" ++ c.path)) := rfl
      have hLength := congrArg List.length (hDrop.symm.trans h)
      have hFront : (js "a/").length = 2 := rfl
      rw [List.length_append, List.length_append, List.length_append,
        hFront] at hLength
      omega
  | some pair =>
      obtain ⟨old, new⟩ := pair
      rw [hNames] at h
      have hNew : new = c.path := h
      rw [headerNames?_header] at hNames
      split at hNames
      · obtain ⟨⟨hText, -, -⟩, -⟩ := greedySplit_eq_some.mp hNames
        rw [hNew, ← List.append_assoc, ← List.append_assoc] at hText
        have hOld := List.append_cancel_right (List.append_cancel_right hText)
        rw [hOld, hNew]
      · cases hNames

/-! ## Broken paths -/

/-- No path that the parser gives has a line break. -/
def Unbroken (file : DiffFile) : Prop :=
  Single file.path ∧ ∀ old, file.oldPath = some old → Single old

theorem unbroken_fileOf {raw : JsString} (h : Single raw) :
    Unbroken (fileOf raw) := by
  have hSub : ∀ text, text.Sublist raw → Single text :=
    fun text hText hBreak => h (hText.subset hBreak)
  rw [fileOf]
  cases hNames : headerNames? raw with
  | none =>
      exact ⟨hSub _ (List.drop_sublist _ _), fun _ hNone => by cases hNone⟩
  | some pair =>
      obtain ⟨old, new⟩ := pair
      have hParts : old.Sublist raw ∧ new.Sublist raw := by
        rw [headerNames?, after?] at hNames
        split at hNames
        · rw [Option.bind_eq_bind, Option.bind_some] at hNames
          split at hNames
          · obtain ⟨⟨hText, -, -⟩, -⟩ := greedySplit_eq_some.mp hNames
            have hRest := List.drop_sublist (js "diff --git a/").length raw
            rw [hText] at hRest
            exact ⟨(List.sublist_append_left _ _).trans hRest,
              ((List.sublist_append_right _ _).trans
                (List.sublist_append_right _ _)).trans hRest⟩
          · cases hNames
        · cases hNames
      refine ⟨hSub new hParts.2, fun text hText => ?_⟩
      dsimp only at hText
      split at hText
      · cases hText
      · rw [← Option.some.inj hText]
        exact hSub old hParts.1

/-- The last file has other lines, but its paths. -/
theorem unbroken_replace {s s' : State} {file file' : DiffFile}
    (hFile : s.file = some file) (hFile' : s'.file = some file')
    (hFiles : s'.files = s.files) (hPath : file'.path = file.path)
    (hOld : file'.oldPath = file.oldPath)
    (h : ∀ other ∈ s.all, Unbroken other) :
    ∀ other ∈ s'.all, Unbroken other := by
  rw [State.all, hFile] at h
  rw [State.all, hFile', hFiles]
  intro other hMem
  rcases List.mem_append.mp hMem with hFront | hLast
  · exact h other (List.mem_append_left _ hFront)
  · rw [List.mem_singleton.mp hLast, Unbroken, hPath, hOld]
    exact h file (List.mem_append_right _ List.mem_cons_self)

/-- Behind its first line a file keeps its paths. -/
theorem unbroken_contentLine {s : State} {file : DiffFile}
    (hFile : s.file = some file) (raw : JsString)
    (h : ∀ other ∈ s.all, Unbroken other) :
    ∀ other ∈ (contentLine s file raw).all, Unbroken other := by
  cases raw with
  | nil => exact h
  | cons u text =>
      rw [contentLine]
      split
      · exact unbroken_replace hFile rfl rfl rfl rfl h
      · split
        · exact unbroken_replace hFile rfl rfl rfl rfl h
        · split
          · exact unbroken_replace hFile rfl rfl rfl rfl h
          · exact h

theorem unbroken_parseLine {s : State} {raw : JsString} (hRaw : Single raw)
    (h : ∀ file ∈ s.all, Unbroken file) :
    ∀ file ∈ (parseLine s raw).all, Unbroken file := by
  rw [parseLine]
  split
  · intro file hMem
    rcases List.mem_append.mp hMem with hFront | hLast
    · exact h file hFront
    · rw [List.mem_singleton.mp hLast]
      exact unbroken_fileOf hRaw
  · cases hFile : s.file with
    | none => exact h
    | some file =>
        dsimp only
        split
        · exact unbroken_replace hFile rfl rfl rfl rfl h
        · cases hunkHeader? raw with
          | some starts => exact unbroken_replace hFile rfl rfl rfl rfl h
          | none =>
              dsimp only
              split
              · exact h
              · exact unbroken_contentLine hFile raw h

theorem unbroken_parsePatch (patch : JsString) :
    ∀ file ∈ parsePatch patch, Unbroken file := by
  have hRun : ∀ (lines : List JsString) (s : State),
      (∀ raw ∈ lines, Single raw) → (∀ file ∈ s.all, Unbroken file) →
      ∀ file ∈ (lines.foldl parseLine s).all, Unbroken file := by
    intro lines
    induction lines with
    | nil => exact fun _ _ h => h
    | cons raw lines ih =>
        intro s hLines h
        obtain ⟨hFirst, hRest⟩ := List.forall_mem_cons.mp hLines
        exact ih _ hRest (unbroken_parseLine hFirst h)
  exact hRun _ _ (fun _ hRaw => not_mem_of_mem_splitOn hRaw)
    (List.forall_mem_nil _)

theorem single_of_readable {c : Change} (h : Readable c) :
    Single c.oldName ∧ Single c.path := by
  have hBreak : ∀ text : JsString, (∀ u ∈ text, dot u = true) →
      Single text := by
    intro text hText hMem
    have hDot := hText _ hMem
    revert hDot
    decide
  exact ⟨hBreak _ h.oldLine, hBreak _ h.newLine⟩

/-- A printed list of changes is read back if and only if each path is without
line terminators and no new path holds the separator with something behind
it. -/
theorem readsBack_iff (changes : List Change) :
    ReadsBack changes ↔ ∀ c ∈ changes, Readable c := by
  constructor
  · intro h c hc
    have hSingle : ∀ c ∈ changes, Single c.oldName ∧ Single c.path := by
      intro c hc
      have hMem : c.file ∈ parsePatch (print changes) := by
        rw [show parsePatch (print changes) = _ from h]
        exact List.mem_map_of_mem hc
      obtain ⟨hPath, hOld⟩ := unbroken_parsePatch _ _ hMem
      refine ⟨?_, hPath⟩
      rw [Change.oldName]
      cases hMoved : c.renamed with
      | none => exact hPath
      | some r => exact hOld r.path (congrArg (Option.map Rename.path) hMoved)
    rw [ReadsBack, parsePatch_print hSingle] at h
    have hFile := List.map_inj_left.mp h c hc
    exact readable_of_path (congrArg DiffFile.path hFile)
  · intro h
    rw [ReadsBack, parsePatch_print fun c hc =>
      single_of_readable (h c hc)]
    exact List.map_congr_left fun c hc => readFile_of_readable (h c hc)

/-- A new file in a directory `a b`. -/
def nested : Change where
  path := js "a b/c"
  named := List.cons_ne_nil _ _
  status := .created .regular
  renamed := none
  moved _ h := absurd h (Option.some_ne_none _).symm
  index := none
  body := .text []

/-- Its header is split at the wrong place. -/
theorem readsBack_nested : ¬ReadsBack [nested] := by
  rw [ReadsBack]
  decide +kernel

end OpenApe.Ports.PatchRoundTrip
