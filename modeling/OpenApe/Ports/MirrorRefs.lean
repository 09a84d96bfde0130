import OpenApe.Verified.JsText
import OpenApe.Verified.Separators

/-!
# Mirrored refs (`apps/openape-git/server/utils/mirror.ts`)

`parseMirrorRefs` reads what `git for-each-ref` and `git ls-remote` print.
Both print a line for each branch and tag; the names git allows hold no
control character and no blank, but they may hold other white space, at which
a line is split too.  Where no name holds any, the refs are read back
(`parseMirrorRefs_printed`).
-/

namespace OpenApe.Ports.MirrorRefs

open Verified.JsText Verified.Separators

/-! ## The source -/

/-- `text.split(/\s+/)`, from a place within a run of white space or not. -/
def splitWhiteFrom (current : JsString) (inRun : Bool) :
    JsString → List JsString
  | [] => [current]
  | u :: rest =>
      if isTrimmed u then
        if inRun then splitWhiteFrom current true rest
        else current :: splitWhiteFrom [] true rest
      else splitWhiteFrom (current ++ [u]) false rest

def splitWhite (text : JsString) : List JsString :=
  splitWhiteFrom [] false text

/-- `/^refs\/(?:heads|tags)\//` -/
def shouldMirrorRef (ref : JsString) : Bool :=
  (js "refs/heads/").isPrefixOf ref || (js "refs/tags/").isPrefixOf ref

/-- `[a-f0-9]` -/
def isHexUnit (u : CodeUnit) : Bool :=
  (unit '0' ≤ u && u ≤ unit '9') || (unit 'a' ≤ u && u ≤ unit 'f')

/-- `/^[a-f0-9]{40,64}$/` -/
def isSha (sha : JsString) : Bool :=
  sha.all isHexUnit && decide (40 ≤ sha.length) && decide (sha.length ≤ 64)

/-- A `Map` from ref names to object names, as the list it is built from. -/
abbrev RefMap := List (JsString × JsString)

/-- `map.get(ref)`: the last entry of a key is the one kept. -/
def RefMap.get (map : RefMap) (ref : JsString) : Option JsString :=
  (map.reverse.find? fun entry => entry.1 == ref).map Prod.snd

/-- What one line contributes. -/
def lineRef (line : JsString) : RefMap :=
  match splitWhite (trim line) with
  | sha :: ref :: _ =>
      if isSha sha && shouldMirrorRef ref &&
          !(js "^\x7b\x7d").isSuffixOf ref then
        [(ref, sha)]
      else []
  | _ => []

def parseMirrorRefs (output : JsString) : RefMap :=
  ((trim output).splitOn (unit '\n')).flatMap lineRef

/-- `mayDeleteMirrorRef` -/
def mayDeleteMirrorRef (lastSuccessfulSha targetSha : Option JsString) : Bool :=
  targetSha == none ||
    (lastSuccessfulSha != none && lastSuccessfulSha == targetSha)

/-! ## The refs of a repository -/

/-- What git lets no ref name hold. -/
def isForbidden (u : CodeUnit) : Bool :=
  u ≤ 0x20 || u == 0x7F ||
    [unit '~', unit '^', unit ':', unit '?', unit '*', unit '[',
      unit '\\'].contains u

/-- The name of a branch or tag. -/
def isRefName (ref : JsString) : Bool :=
  shouldMirrorRef ref && !ref.any isForbidden

/-- The name of an object, by one of the two hash functions of git. -/
def isObjectName (sha : JsString) : Bool :=
  sha.all isHexUnit && (sha.length == 40 || sha.length == 64)

/-- The branches and tags of a repository and what they point to. -/
structure Refs where
  entries : List (JsString × JsString)
  nodup : (entries.map Prod.fst).Nodup
  names : ∀ entry ∈ entries, isRefName entry.1 = true
  shas : ∀ entry ∈ entries, isObjectName entry.2 = true

def Refs.get (refs : Refs) (ref : JsString) : Option JsString :=
  RefMap.get refs.entries ref

theorem RefMap.get_eq_some_iff {map : RefMap}
    (hNodup : (map.map Prod.fst).Nodup) {ref sha : JsString} :
    RefMap.get map ref = some sha ↔ (ref, sha) ∈ map := by
  have hReverse : (map.reverse.map Prod.fst).Nodup := by
    rw [List.map_reverse]
    exact List.nodup_reverse.mpr hNodup
  rw [RefMap.get, Option.map_eq_some_iff]
  constructor
  · rintro ⟨⟨ref', sha'⟩, hFound, rfl⟩
    have hKey : ref' = ref := by simpa using List.find?_some hFound
    rw [← hKey]
    exact List.mem_reverse.mp (List.mem_of_find?_eq_some hFound)
  · intro hMem
    cases hFound : map.reverse.find? fun entry => entry.1 == ref with
    | none =>
        have hNot := List.find?_eq_none.mp hFound (ref, sha)
          (List.mem_reverse.mpr hMem)
        simp at hNot
    | some entry =>
        have hKey : entry.1 = ref := by simpa using List.find?_some hFound
        have hSame : entry = (ref, sha) :=
          List.inj_on_of_nodup_map hReverse
            (List.mem_of_find?_eq_some hFound)
            (List.mem_reverse.mpr hMem) hKey
        exact ⟨entry, rfl, by rw [hSame]⟩

theorem Refs.get_eq_some_iff {refs : Refs} {ref sha : JsString} :
    refs.get ref = some sha ↔ (ref, sha) ∈ refs.entries :=
  RefMap.get_eq_some_iff refs.nodup

/-- The line of a ref. -/
def refLine (separator : CodeUnit) (entry : JsString × JsString) : JsString :=
  entry.2 ++ separator :: entry.1

/-- The refs as a command prints them, a line each. -/
def printed (separator : CodeUnit) (refs : Refs) : JsString :=
  (refs.entries.map (refLine separator)).flatMap (· ++ [unit '\n'])

/-- `git for-each-ref --format=%(objectname) %(refname)` -/
def localOutput (refs : Refs) : JsString := printed (unit ' ') refs

/-- `git ls-remote --refs` -/
def remoteOutput (refs : Refs) : JsString := printed (unit '\t') refs

/-- No ref name holds white space. -/
def Plain (refs : Refs) : Prop :=
  ∀ entry ∈ refs.entries, ∀ u ∈ entry.1, isTrimmed u = false

/-! ## Reading back -/

/-- White space behind a text that neither begins nor ends with any. -/
theorem trim_append {text tail : JsString}
    (hFirst : ∀ u ∈ text.head?, isTrimmed u = false)
    (hLast : ∀ u ∈ text.getLast?, isTrimmed u = false)
    (hTail : ∀ u ∈ tail, isTrimmed u = true) : trim (text ++ tail) = text := by
  have hEnd : trimEnd (text ++ tail) = text := by
    have hReverse : ∀ u ∈ tail.reverse, isTrimmed u = true := fun u hu =>
      hTail u (List.mem_reverse.mp hu)
    rw [trimEnd, List.reverse_append,
      List.dropWhile_append_of_pos hReverse]
    cases hText : text.reverse with
    | nil => simpa using hText.symm
    | cons u rest =>
        have hu : isTrimmed u = false := by
          refine hLast u ?_
          rw [← List.head?_reverse, hText]
          rfl
        rw [List.dropWhile_cons_of_neg (by simp [hu]), ← hText,
          List.reverse_reverse]
  cases text with
  | nil =>
      have hAll : ([] ++ tail).dropWhile isTrimmed = [] := by
        rw [List.nil_append, List.dropWhile_eq_nil_iff]
        exact hTail
      rw [trim, hAll]
      rfl
  | cons u rest =>
      have hu : isTrimmed u = false := hFirst u rfl
      rw [trim, List.cons_append, List.dropWhile_cons_of_neg (by simp [hu]),
        ← List.cons_append, hEnd]

/-- A word is read to its end. -/
theorem splitWhiteFrom_word {word : JsString}
    (hWord : ∀ u ∈ word, isTrimmed u = false) (current : JsString)
    (inRun : Bool) : splitWhiteFrom current inRun word = [current ++ word] := by
  induction word generalizing current inRun with
  | nil => rw [splitWhiteFrom, List.append_nil]
  | cons u word ih =>
      obtain ⟨hu, hRest⟩ := List.forall_mem_cons.mp hWord
      rw [splitWhiteFrom, if_neg (by simp [hu]), ih hRest, List.append_assoc]
      rfl

/-- Two words with one blank between them. -/
theorem splitWhiteFrom_words {first second : JsString} {blank : CodeUnit}
    (hFirst : ∀ u ∈ first, isTrimmed u = false)
    (hSecond : ∀ u ∈ second, isTrimmed u = false)
    (hBlank : isTrimmed blank = true) (current : JsString) :
    splitWhiteFrom current false (first ++ blank :: second) =
      [current ++ first, second] := by
  induction first generalizing current with
  | nil =>
      rw [List.nil_append, splitWhiteFrom, if_pos hBlank,
        if_neg Bool.false_ne_true, splitWhiteFrom_word hSecond,
        List.append_nil, List.nil_append]
  | cons u first ih =>
      obtain ⟨hu, hRest⟩ := List.forall_mem_cons.mp hFirst
      rw [List.cons_append, splitWhiteFrom, if_neg (by simp [hu]), ih hRest,
        List.append_assoc]
      rfl

/-- No digit is white space. -/
theorem isTrimmed_of_isHexUnit {u : CodeUnit} (h : isHexUnit u = true) :
    isTrimmed u = false := by
  have hRange : 0x30 ≤ u.toNat ∧ u.toNat ≤ 0x39 ∨
      0x61 ≤ u.toNat ∧ u.toNat ≤ 0x66 := by
    simpa [isHexUnit, unit, UInt16.le_iff_toNat_le] using h
  have hNe : ∀ n : UInt16, n.toNat < 0x30 ∨ 0x66 < n.toNat →
      (u == n) = false := by
    intro n hn
    rw [beq_eq_false_iff_ne]
    intro hSame
    rw [hSame] at hRange
    omega
  have hLess : ¬0x2000 ≤ u := by
    rw [UInt16.le_iff_toNat_le]
    have hBound : (0x2000 : UInt16).toNat = 0x2000 := rfl
    omega
  simp [isTrimmed, isLineTerminator, hNe, hLess]

/-- What is known of an entry. -/
theorem Refs.entry_spec (refs : Refs) (hPlain : Plain refs)
    {entry : JsString × JsString} (h : entry ∈ refs.entries) :
    (∀ u ∈ entry.1, isTrimmed u = false) ∧
      (∀ u ∈ entry.2, isTrimmed u = false) ∧ isSha entry.2 = true ∧
      shouldMirrorRef entry.1 = true ∧
      (js "^\x7b\x7d").isSuffixOf entry.1 = false := by
  have hName := refs.names entry h
  have hSha := refs.shas entry h
  rw [isRefName, Bool.and_eq_true, Bool.not_eq_true'] at hName
  rw [isObjectName, Bool.and_eq_true, Bool.or_eq_true, beq_iff_eq,
    beq_iff_eq] at hSha
  refine ⟨hPlain entry h, ?_, ?_, hName.1, ?_⟩
  · intro u hu
    exact isTrimmed_of_isHexUnit (List.all_eq_true.mp hSha.1 u hu)
  · rw [isSha, hSha.1]
    rcases hSha.2 with hLength | hLength <;> simp [hLength]
  · rw [Bool.eq_false_iff]
    intro hSuffix
    -- the caret is none of the units a name may hold
    have hCaret : unit '^' ∈ entry.1 :=
      (List.isSuffixOf_iff_suffix.mp hSuffix).subset (by decide)
    have hAny : entry.1.any isForbidden = true :=
      List.any_eq_true.mpr ⟨unit '^', hCaret, by decide⟩
    rw [hName.2] at hAny
    cases hAny

theorem name_ne_nil {ref : JsString} (h : shouldMirrorRef ref = true) :
    ref ≠ [] := by
  rintro rfl
  revert h
  decide

theorem sha_ne_nil {sha : JsString} (h : isSha sha = true) : sha ≠ [] := by
  rintro rfl
  revert h
  decide

section Printed

variable {refs : Refs} {separator : CodeUnit}

/-- A printed line begins with a digit and ends with a unit of the name. -/
theorem refLine_ends (separator : CodeUnit) {entry : JsString × JsString}
    (hName : ∀ u ∈ entry.1, isTrimmed u = false)
    (hSha : ∀ u ∈ entry.2, isTrimmed u = false) (hNameNe : entry.1 ≠ [])
    (hShaNe : entry.2 ≠ []) :
    (∀ u ∈ (refLine separator entry).head?, isTrimmed u = false) ∧
      ∀ u ∈ (refLine separator entry).getLast?, isTrimmed u = false := by
  constructor
  · intro u hu
    rw [refLine, List.head?_append_of_ne_nil _ hShaNe] at hu
    exact hSha u (List.mem_of_mem_head? hu)
  · intro u hu
    rw [refLine, List.getLast?_append_of_ne_nil _ (List.cons_ne_nil _ _),
      List.getLast?_cons_of_ne_nil hNameNe] at hu
    exact hName u (List.mem_of_mem_getLast? hu)

/-- A printed line is read as its ref. -/
theorem lineRef_refLine (hPlain : Plain refs)
    (hBlank : isTrimmed separator = true) {entry : JsString × JsString}
    (h : entry ∈ refs.entries) :
    lineRef (refLine separator entry) = [entry] := by
  obtain ⟨hName, hSha, hIsSha, hMirror, hSuffix⟩ :=
    refs.entry_spec hPlain h
  obtain ⟨hHead, hLast⟩ := refLine_ends separator hName hSha
    (name_ne_nil hMirror) (sha_ne_nil hIsSha)
  have hTrim : trim (refLine separator entry ++ []) =
      refLine separator entry :=
    trim_append hHead hLast (fun u hu => absurd hu List.not_mem_nil)
  rw [List.append_nil] at hTrim
  rw [lineRef, hTrim, splitWhite, refLine,
    splitWhiteFrom_words hSha hName hBlank]
  simp [hIsSha, hMirror, hSuffix]

theorem isTrimmed_lineFeed : isTrimmed (unit '\n') = true := by decide

theorem lineFeed_notMem_refLine (hPlain : Plain refs)
    (hSeparator : separator ≠ unit '\n') {entry : JsString × JsString}
    (h : entry ∈ refs.entries) :
    unit '\n' ∉ refLine separator entry := by
  obtain ⟨hName, hSha, _⟩ := refs.entry_spec hPlain h
  have hLineFeed := isTrimmed_lineFeed
  rw [refLine, List.mem_append, List.mem_cons]
  rintro (hMem | hSame | hMem)
  · rw [hSha _ hMem] at hLineFeed
    cases hLineFeed
  · exact hSeparator hSame.symm
  · rw [hName _ hMem] at hLineFeed
    cases hLineFeed

/-- The first and the last unit of what is printed, the last line feed left
out. -/
theorem printed_ends (hPlain : Plain refs)
    {front : List (JsString × JsString)} {last : JsString × JsString}
    (hEntries : refs.entries = front ++ [last]) {body : JsString}
    (hBody : body = (front.map (refLine separator)).flatMap
      (· ++ [unit '\n']) ++ refLine separator last) :
    (∀ u ∈ body.head?, isTrimmed u = false) ∧
      ∀ u ∈ body.getLast?, isTrimmed u = false := by
  have hEnds : ∀ entry ∈ refs.entries,
      (∀ u ∈ (refLine separator entry).head?, isTrimmed u = false) ∧
        ∀ u ∈ (refLine separator entry).getLast?, isTrimmed u = false := by
    intro entry hEntry
    obtain ⟨hName, hSha, hIsSha, hMirror, _⟩ := refs.entry_spec hPlain hEntry
    exact refLine_ends separator hName hSha (name_ne_nil hMirror)
      (sha_ne_nil hIsSha)
  have hNonempty : ∀ entry, refLine separator entry ≠ [] := fun entry => by
    simp [refLine]
  have hLastMem : last ∈ refs.entries := by simp [hEntries]
  constructor
  · cases front with
    | nil =>
        rw [hBody]
        exact (hEnds last hLastMem).1
    | cons first front =>
        have hFirstMem : first ∈ refs.entries := by simp [hEntries]
        rw [hBody, List.map_cons, List.flatMap_cons, List.append_assoc,
          List.append_assoc, List.head?_append_of_ne_nil _ (hNonempty first)]
        exact (hEnds first hFirstMem).1
  · rw [hBody, List.getLast?_append_of_ne_nil _ (hNonempty last)]
    exact (hEnds last hLastMem).2

/-- The lines of the printed refs. -/
theorem splitOn_trim_printed (hPlain : Plain refs)
    (hSeparator : separator ≠ unit '\n') (hNe : refs.entries ≠ []) :
    (trim (printed separator refs)).splitOn (unit '\n') =
      refs.entries.map (refLine separator) := by
  have hSplit : (printed separator refs).splitOn (unit '\n') =
      refs.entries.map (refLine separator) ++ [[]] := by
    refine splitOn_flatMap fun line hLine => ?_
    obtain ⟨entry, hEntry, rfl⟩ := List.mem_map.mp hLine
    exact lineFeed_notMem_refLine hPlain hSeparator hEntry
  obtain ⟨front, last, hEntries⟩ :=
    (List.eq_nil_or_concat' refs.entries).resolve_left hNe
  -- the last line feed is what is trimmed
  obtain ⟨body, hBody⟩ : ∃ body, body =
      (front.map (refLine separator)).flatMap (· ++ [unit '\n']) ++
        refLine separator last := ⟨_, rfl⟩
  have hPrinted : printed separator refs = body ++ [unit '\n'] := by
    rw [printed, hEntries, hBody]
    simp
  obtain ⟨hHead, hLast⟩ := printed_ends hPlain hEntries hBody
  have hTrim : trim (printed separator refs) = body := by
    rw [hPrinted]
    refine trim_append hHead hLast fun u hu => ?_
    rw [List.mem_singleton.mp hu]
    exact isTrimmed_lineFeed
  rw [hPrinted, List.splitOn_append_cons_self, List.splitOn_nil] at hSplit
  rw [hTrim]
  exact List.append_cancel_right hSplit

/-- **Reading back**: refs whose names hold no white space. -/
theorem parseMirrorRefs_printed (hPlain : Plain refs)
    (hBlank : isTrimmed separator = true) (hSeparator : separator ≠ unit '\n') :
    parseMirrorRefs (printed separator refs) = refs.entries := by
  by_cases hNe : refs.entries = []
  · rw [parseMirrorRefs, printed, hNe]
    rfl
  · have hLines : ∀ entries : List (JsString × JsString),
        (∀ entry ∈ entries, entry ∈ refs.entries) →
          (entries.map (refLine separator)).flatMap lineRef = entries := by
      intro entries hMem
      induction entries with
      | nil => rfl
      | cons entry entries ih =>
          obtain ⟨hEntry, hRest⟩ := List.forall_mem_cons.mp hMem
          rw [List.map_cons, List.flatMap_cons, ih hRest,
            lineRef_refLine hPlain hBlank hEntry]
          rfl
    rw [parseMirrorRefs, splitOn_trim_printed hPlain hSeparator hNe]
    exact hLines refs.entries fun entry hEntry => hEntry

end Printed

theorem parseMirrorRefs_localOutput {refs : Refs} (hPlain : Plain refs) :
    parseMirrorRefs (localOutput refs) = refs.entries :=
  parseMirrorRefs_printed hPlain (by decide) (by decide)

theorem parseMirrorRefs_remoteOutput {refs : Refs} (hPlain : Plain refs) :
    parseMirrorRefs (remoteOutput refs) = refs.entries :=
  parseMirrorRefs_printed hPlain (by decide) (by decide)

end OpenApe.Ports.MirrorRefs
