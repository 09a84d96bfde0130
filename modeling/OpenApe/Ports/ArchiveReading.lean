import OpenApe.Ports.ArchiveWriting

/-!
# One reading of an archive (`archive.ts`)

What `archiveEntries` has checked of the bytes it accepts: the local entries
tile the bytes before the directory, the directory's entries tile the bytes
before the end record, no two paths are equal up to letter case, and the two
headers of an entry agree.  Names and the manifest are compared as decoded
texts, and the decoder drops a byte order mark; so their bytes agree exactly
where the marks do (`archive_one_reading_iff`).
-/

namespace OpenApe.Ports.ArchiveReading

open Verified.Chunks Verified.Fallible Verified.JsText Verified.Tiling
  Verified.Utf8 Verified.Utf8Decode
open PortableValues PortableArchive ArchiveWriting

/-! ## The central directory -/

/-- Where so many directory entries begin, from a position on. -/
def centralOffsets (bytes : Bytes) : Nat → Nat → List Nat
  | 0, _ => []
  | count + 1, cursor =>
      cursor :: centralOffsets bytes count (nextHeader bytes cursor)

/-- What one turn of the directory's loop has checked. -/
structure Central (bytes : Bytes) (stop cursor : Nat) (entry : ZipEntry) :
    Prop where
  fields : entry = centralFields bytes cursor entry.path
  name : textDecode (centralName bytes cursor) = some entry.path
  inside : nextHeader bytes cursor ≤ stop

theorem text_eq_ok {bytes : Bytes} {name : JsString}
    (h : PortableArchive.text bytes = .ok name) :
    textDecode bytes = some name := by
  rw [PortableArchive.text] at h
  cases hName : textDecode bytes with
  | none =>
      rw [hName] at h
      cases h
  | some decoded =>
      rw [hName] at h
      cases h
      rfl

theorem portablePath_eq_ok {name path : JsString}
    (h : portablePath (some (.string name)) = .ok path) : path = name := by
  obtain ⟨checked, hText, h⟩ := bind_eq_ok.mp h
  simp only [fail] at h
  split_ifs at h
  cases h
  simp only [PortableValues.text, CentralValues.text?, Option.bind_some,
    Verified.Json.JsonValue.text?, fail] at hText
  split_ifs at hText
  cases hText
  rfl

theorem centralEntry_spec {bytes : Bytes} {stop cursor total : Nat}
    {names : List JsString} {entry : ZipEntry}
    (h : centralEntry bytes stop names cursor total = .ok entry) :
    Central bytes stop cursor entry ∧ lowerCase entry.path ∉ names := by
  simp only [centralEntry, throws] at h
  split_ifs at h with hSignature hMetadata
  obtain ⟨name, hName, h⟩ := bind_eq_ok.mp h
  obtain ⟨path, hPath, h⟩ := bind_eq_ok.mp h
  have hSame := portablePath_eq_ok hPath
  split_ifs at h with hNames
  cases h
  simp only [Bool.or_eq_true, decide_eq_true_eq, not_or, Nat.not_lt] at hMetadata
  refine ⟨⟨rfl, ?_, hMetadata.1.1.2⟩, ?_⟩
  · rw [text_eq_ok hName]
    exact congrArg some hSame.symm
  · have hNew : lowerCase path ∉ names := by simpa using hNames
    exact hNew

theorem centralEntries_spec {bytes : Bytes} {stop count cursor total : Nat}
    {names : List JsString} {entries : List ZipEntry} {last : Nat}
    (h : centralEntries bytes stop count names cursor total =
      .ok (entries, last)) :
    List.Forall₂ (Central bytes stop) (centralOffsets bytes count cursor)
        entries ∧
      Tiles cursor ((centralOffsets bytes count cursor).map fun c =>
        (c, nextHeader bytes c)) last ∧
      (entries.map fun entry => lowerCase entry.path).Nodup ∧
      ∀ entry ∈ entries, lowerCase entry.path ∉ names := by
  induction count generalizing names cursor total entries with
  | zero =>
      cases h
      exact ⟨.nil, rfl, List.nodup_nil, fun _ hMem => (nomatch hMem)⟩
  | succ count ih =>
      obtain ⟨entry, hEntry, h⟩ := bind_eq_ok.mp h
      obtain ⟨⟨rest, last'⟩, hRest, h⟩ := bind_eq_ok.mp h
      cases h
      obtain ⟨hCentral, hNew⟩ := centralEntry_spec hEntry
      obtain ⟨hAll, hTiles, hNodup, hNames⟩ := ih hRest
      have hStep : cursor ≤ nextHeader bytes cursor := by
        rw [nextHeader]
        omega
      refine ⟨.cons hCentral hAll, ⟨rfl, hStep, hTiles⟩, ?_, ?_⟩
      · rw [List.map_cons, List.nodup_cons]
        refine ⟨fun hMem => ?_, hNodup⟩
        obtain ⟨other, hOther, hPath⟩ := List.mem_map.mp hMem
        apply hNames other hOther
        rw [hPath]
        exact List.mem_cons_self
      · rw [List.forall_mem_cons]
        exact ⟨hNew, fun other hOther hMem =>
          hNames other hOther (List.mem_cons_of_mem _ hMem)⟩

/-! ## The local entries -/

/-- What one turn of the loop over the local entries has checked. -/
structure Local (bytes : Bytes) (directory : Nat) (entry : ZipEntry) :
    Prop where
  name : textDecode (localName bytes entry.offset) = some entry.path
  flags : u16 bytes (entry.offset + 6) = entry.flags
  method : u16 bytes (entry.offset + 8) = entry.method
  crc : u32 bytes (entry.offset + 14) = entry.crc
  compressed : u32 bytes (entry.offset + 18) = entry.compressed
  expanded : u32 bytes (entry.offset + 22) = entry.expanded
  extra : u16 bytes (entry.offset + 28) = 0
  inside : entry.start + entry.compressed ≤ directory

/-- The bytes of a local entry, header and content. -/
def localSpan (entry : ZipEntry) : Span :=
  (entry.offset, entry.start + entry.compressed)

theorem localEntry_spec {bytes : Bytes} {directory expected next : Nat}
    {entry : ZipEntry}
    (h : localEntry bytes directory expected entry = .ok next) :
    Local bytes directory entry ∧ entry.offset = expected ∧
      next = entry.start + entry.compressed := by
  simp only [localEntry, throws] at h
  split at h
  · cases h
  rename_i hPlace
  split at h
  · cases h
  rename_i hExtra
  obtain ⟨name, hName, h⟩ := bind_eq_ok.mp h
  split at h
  · cases h
  rename_i hNames
  split at h
  · cases h
  rename_i hSizes
  split at h
  · cases h
  rename_i hInside
  cases h
  simp only [Bool.or_eq_true, bne_iff_ne, ne_eq, decide_eq_true_eq, not_or,
    Decidable.not_not, Nat.not_lt] at hPlace hExtra hNames hSizes hInside
  obtain ⟨⟨rfl, hFlags⟩, hMethod⟩ := hNames
  obtain ⟨⟨hCrc, hCompressed⟩, hExpanded⟩ := hSizes
  exact ⟨⟨text_eq_ok hName, hFlags, hMethod, hCrc, hCompressed, hExpanded,
    hExtra.1, hInside⟩, hPlace.1.1, rfl⟩

/-- The start that the loop sets. -/
theorem localSpan_withStart_le (bytes : Bytes) (entry : ZipEntry) :
    (localSpan (withStart bytes entry)).1 ≤
      (localSpan (withStart bytes entry)).2 := by
  simp only [localSpan, withStart]
  omega

theorem localEntries_spec {bytes : Bytes} {directory expected last : Nat}
    {entries : List ZipEntry}
    (h : localEntries bytes directory entries expected = .ok last)
    (hStarts : ∀ entry ∈ entries, withStart bytes entry = entry) :
    (∀ entry ∈ entries, Local bytes directory entry) ∧
      Tiles expected (entries.map localSpan) last := by
  induction entries generalizing expected with
  | nil =>
      cases h
      exact ⟨fun _ hMem => (nomatch hMem), rfl⟩
  | cons entry entries ih =>
      obtain ⟨next, hNext, h⟩ := bind_eq_ok.mp h
      obtain ⟨hLocal, hOffset, rfl⟩ := localEntry_spec hNext
      rw [List.forall_mem_cons] at hStarts
      obtain ⟨hAll, hTiles⟩ := ih h hStarts.2
      have hSpan := localSpan_withStart_le bytes entry
      rw [hStarts.1] at hSpan
      exact ⟨List.forall_mem_cons.mpr ⟨hLocal, hAll⟩, hOffset, hSpan, hTiles⟩

/-! ## The two headers of an entry -/

def hasMark (bytes : Bytes) : Bool := byteOrderMark.isPrefixOf bytes

/-- Bytes that decode to one text are the same bytes, save for the mark. -/
theorem eq_of_textDecode {a b : Bytes} {name : JsString}
    (ha : textDecode a = some name) (hb : textDecode b = some name)
    (hMark : hasMark a = hasMark b) : a = b := by
  have hSame := decodeUtf8_inj ha hb
  rw [dropMark, dropMark] at hSame
  rw [hasMark, hasMark] at hMark
  rw [hMark] at hSame
  split_ifs at hSame with hBoth
  · obtain ⟨a', rfl⟩ := List.isPrefixOf_iff_prefix.mp (hMark.trans hBoth)
    obtain ⟨b', rfl⟩ := List.isPrefixOf_iff_prefix.mp hBoth
    exact congrArg (byteOrderMark ++ ·) hSame
  · exact hSame

/-- The fields that the directory and the local header both have. -/
structure SameHeader (bytes : Bytes) (cursor offset : Nat) : Prop where
  flags : u16 bytes (cursor + 8) = u16 bytes (offset + 6)
  method : u16 bytes (cursor + 10) = u16 bytes (offset + 8)
  crc : u32 bytes (cursor + 16) = u32 bytes (offset + 14)
  compressed : u32 bytes (cursor + 20) = u32 bytes (offset + 18)
  expanded : u32 bytes (cursor + 24) = u32 bytes (offset + 22)
  nameLength : u16 bytes (cursor + 28) = u16 bytes (offset + 26)

/-- The entries of an archive with the positions of their directory headers. -/
def headersOf (bytes : Bytes) (record : EndRecord) (entries : List ZipEntry) :
    List (Nat × ZipEntry) :=
  (centralOffsets bytes record.count record.directory).zip entries

/-- An archive that reads in one way only. -/
structure OneReading (bytes : Bytes) (record : EndRecord)
    (entries : List ZipEntry) : Prop where
  locals : Tiles 0 ((sortByOffset entries).map localSpan) record.directory
  centrals : Tiles record.directory
    ((headersOf bytes record entries).map fun header =>
      (header.1, nextHeader bytes header.1)) record.stop
  listed : (headersOf bytes record entries).map Prod.snd = entries
  paths : (entries.map fun entry => lowerCase entry.path).Nodup
  fields : ∀ header ∈ headersOf bytes record entries,
    SameHeader bytes header.1 header.2.offset
  names : ∀ header ∈ headersOf bytes record entries,
    centralName bytes header.1 = localName bytes header.2.offset

/-- In every entry the name begins with a byte order mark in both headers or
in neither. -/
def MarksAgree (bytes : Bytes) (record : EndRecord)
    (entries : List ZipEntry) : Prop :=
  ∀ header ∈ headersOf bytes record entries,
    hasMark (centralName bytes header.1) =
      hasMark (localName bytes header.2.offset)

/-! ## Archives -/

/-- What `archiveEntries` has checked: every part of `OneReading` that needs no
comparison of names. -/
structure Accepted (bytes : Bytes) (record : EndRecord)
    (entries : List ZipEntry) : Prop where
  stop : record.stop ≤ bytes.length
  directory : record.directory ≤ record.stop
  locals : Tiles 0 ((sortByOffset entries).map localSpan) record.directory
  centrals : Tiles record.directory
    ((headersOf bytes record entries).map fun header =>
      (header.1, nextHeader bytes header.1)) record.stop
  listed : (headersOf bytes record entries).map Prod.snd = entries
  paths : (entries.map fun entry => lowerCase entry.path).Nodup
  central : ∀ header ∈ headersOf bytes record entries,
    ∃ entry, Central bytes record.stop header.1 entry ∧
      header.2 = withStart bytes entry
  loc : ∀ entry ∈ entries, Local bytes record.directory entry

theorem endRecord_spec {bytes : Bytes} {record : EndRecord}
    (h : endRecord bytes = .ok record) :
    record.stop ≤ bytes.length ∧ record.directory ≤ record.stop := by
  simp only [endRecord, throws] at h
  split at h
  · cases h
  split at h
  · cases h
  split at h
  · cases h
  rename_i hDirectory
  cases h
  rw [bne_iff_ne, ne_eq, Decidable.not_not] at hDirectory
  exact ⟨Nat.sub_le _ _, Nat.le_of_add_right_le (Nat.le_of_eq hDirectory)⟩

theorem archiveEntries_spec {bytes : Bytes} {entries : List ZipEntry}
    (h : archiveEntries bytes = .ok entries) :
    ∃ record, endRecord bytes = .ok record ∧
      Accepted bytes record entries := by
  obtain ⟨record, hRecord, h⟩ := bind_eq_ok.mp h
  obtain ⟨⟨read, last⟩, hCentral, h⟩ := bind_eq_ok.mp h
  simp only [throws] at h
  split at h
  · cases h
  rename_i hStop
  obtain ⟨localsEnd, hLocals, h⟩ := bind_eq_ok.mp h
  split at h
  · cases h
  rename_i hDirectory
  cases h
  rw [bne_iff_ne, ne_eq, Decidable.not_not] at hStop hDirectory
  subst hStop hDirectory
  obtain ⟨hStopLe, hDirectoryLe⟩ := endRecord_spec hRecord
  obtain ⟨hAll, hTiles, hPaths, -⟩ := centralEntries_spec hCentral
  have hLengths := hAll.length_eq
  have hStarts : ∀ entry ∈ sortByOffset (read.map (withStart bytes)),
      withStart bytes entry = entry := by
    intro entry hEntry
    obtain ⟨original, -, rfl⟩ :=
      List.mem_map.mp (List.mem_mergeSort.mp hEntry)
    rfl
  obtain ⟨hLocal, hLocalTiles⟩ := localEntries_spec hLocals hStarts
  have hFirst : (headersOf bytes record (read.map (withStart bytes))).map
      Prod.fst = centralOffsets bytes record.count record.directory := by
    rw [headersOf]
    exact List.map_fst_zip (by rw [List.length_map, hLengths])
  refine ⟨record, hRecord, {
    stop := hStopLe
    directory := hDirectoryLe
    locals := hLocalTiles
    centrals := ?_
    listed := ?_
    paths := ?_
    central := ?_
    loc := ?_ }⟩
  · rw [← hFirst, List.map_map] at hTiles
    exact hTiles
  · rw [headersOf]
    exact List.map_snd_zip (by rw [List.length_map, hLengths])
  · rw [List.map_map]
    exact hPaths
  · intro header hHeader
    rw [headersOf, List.zip_map_right] at hHeader
    obtain ⟨⟨cursor, entry⟩, hPair, rfl⟩ := List.mem_map.mp hHeader
    exact ⟨entry, List.forall₂_zip hAll hPair, rfl⟩
  · intro entry hEntry
    exact hLocal entry (List.mem_mergeSort.mpr hEntry)

/-! ## Names -/

theorem subarray_length {bytes : Bytes} {start stop : Nat}
    (h : stop ≤ bytes.length) : (subarray bytes start stop).length =
      stop - start := by
  rw [subarray, List.length_drop, List.length_take, Nat.min_eq_left h]

theorem mem_of_header {bytes : Bytes} {record : EndRecord}
    {entries : List ZipEntry} {header : Nat × ZipEntry}
    (h : header ∈ headersOf bytes record entries) : header.2 ∈ entries :=
  (List.of_mem_zip h).2

namespace Accepted

variable {bytes : Bytes} {record : EndRecord} {entries : List ZipEntry}
  {header : Nat × ZipEntry}

/-- Both names of an entry decode to its path. -/
theorem names_decode (h : Accepted bytes record entries)
    (hHeader : header ∈ headersOf bytes record entries) :
    textDecode (centralName bytes header.1) = some header.2.path ∧
      textDecode (localName bytes header.2.offset) = some header.2.path := by
  obtain ⟨entry, hCentral, hEntry⟩ := h.central header hHeader
  have hLocal := h.loc header.2 (mem_of_header hHeader)
  refine ⟨?_, hLocal.name⟩
  rw [hEntry]
  exact hCentral.name

/-- Names of the same bytes have the same length, also as the headers state
it. -/
theorem nameLength_eq (h : Accepted bytes record entries)
    (hHeader : header ∈ headersOf bytes record entries)
    (hName : centralName bytes header.1 = localName bytes header.2.offset) :
    u16 bytes (header.1 + 28) = u16 bytes (header.2.offset + 26) := by
  obtain ⟨entry, hCentral, hEntry⟩ := h.central header hHeader
  have hLocal := h.loc header.2 (mem_of_header hHeader)
  have hStart : header.2.start = header.2.offset + 30 +
      u16 bytes (header.2.offset + 26) + u16 bytes (header.2.offset + 28) := by
    rw [hEntry]
    rfl
  have hInside := hLocal.inside
  have hExtra := hLocal.extra
  have hCentralInside := hCentral.inside
  have hStop := h.stop
  have hDirectory := h.directory
  have hLengths := congrArg List.length hName
  rw [centralName, localName, subarray_length (by omega),
    subarray_length (by omega), nextHeader] at hLengths
  omega

theorem sameHeader (h : Accepted bytes record entries)
    (hHeader : header ∈ headersOf bytes record entries)
    (hName : centralName bytes header.1 = localName bytes header.2.offset) :
    SameHeader bytes header.1 header.2.offset := by
  have hLength := h.nameLength_eq hHeader hName
  obtain ⟨entry, hCentral, hEntry⟩ := h.central header hHeader
  have hLocal := h.loc header.2 (mem_of_header hHeader)
  have hFields := hCentral.fields
  have hSame : header.2 = withStart bytes
      (centralFields bytes header.1 entry.path) := by
    rw [← hFields]
    exact hEntry
  refine ⟨?_, ?_, ?_, ?_, ?_, hLength⟩
  · rw [hLocal.flags, hSame]
    rfl
  · rw [hLocal.method, hSame]
    rfl
  · rw [hLocal.crc, hSame]
    rfl
  · rw [hLocal.compressed, hSame]
    rfl
  · rw [hLocal.expanded, hSame]
    rfl

/-- An accepted archive reads in one way exactly where its names carry the
same marks. -/
theorem oneReading_iff (h : Accepted bytes record entries) :
    OneReading bytes record entries ↔ MarksAgree bytes record entries := by
  constructor
  · intro hOne header hHeader
    rw [hOne.names header hHeader]
  · intro hMarks
    have hNames : ∀ header ∈ headersOf bytes record entries,
        centralName bytes header.1 = localName bytes header.2.offset := by
      intro header hHeader
      obtain ⟨hCentral, hLocal⟩ := h.names_decode hHeader
      exact eq_of_textDecode hCentral hLocal (hMarks header hHeader)
    exact {
      locals := h.locals
      centrals := h.centrals
      listed := h.listed
      paths := h.paths
      fields := fun header hHeader =>
        h.sameHeader hHeader (hNames header hHeader)
      names := hNames }

end Accepted

/-! ## The manifest -/

section

variable {Manifest : Type} (format : Format Manifest)

/-- The expanded bytes of an archive's `manifest.json`. -/
def manifestContent (bytes : Bytes) : Checked Bytes := do
  let entries ← archiveEntries bytes
  match entries.find? isManifestEntry with
  | none => throws "Portable ZIP manifest is missing"
  | some entry => expand format bytes entry

/-- What `readPortableArchive` does with the entries it has read. -/
def readEntries (bytes : Bytes) (entries : List ZipEntry) :
    Checked (ReadPackage Manifest) :=
  match entries.find? isManifestEntry with
  | none => throws "Portable ZIP manifest is missing"
  | some manifestEntry => do
      let content ← expand format bytes manifestEntry
      let manifest ← readManifest format content
      let others := entries.filter fun entry => !isManifestEntry entry
      if entries.length != (format.files manifest).length + 1 then
        throws "Portable file inventory differs from the manifest"
      else if !others.all (isDeclared (format.files manifest)) then
        throws "Portable ZIP inventory differs from the declared manifest"
      else do
        let files ← others.mapM fun entry => do
          let content ← expand format bytes entry
          return (entry.path, content)
        format.validateFiles manifest files
        return {
          manifest := manifest
          files := files
          transferSha256 := format.sha256 bytes }

variable {format} in
theorem readPortableArchive_of_entries {bytes : Bytes}
    {entries : List ZipEntry} (hLength : bytes.length ≤ transferBytes)
    (h : archiveEntries bytes = .ok entries) :
    readPortableArchive format bytes = readEntries format bytes entries := by
  rw [readPortableArchive, if_neg (Nat.not_lt.mpr hLength), h]
  rfl

variable {format} in
theorem manifestContent_of_entries {bytes : Bytes} {entries : List ZipEntry}
    (h : archiveEntries bytes = .ok entries) :
    manifestContent format bytes =
      match entries.find? isManifestEntry with
      | none => throws "Portable ZIP manifest is missing"
      | some entry => expand format bytes entry := by
  rw [manifestContent, h]
  rfl

/-- What a reader has of a manifest: its bytes and their canonical text. -/
structure ManifestRead (bytes : Bytes) (manifest : Manifest)
    (content : Bytes) (canonical : JsString) : Prop where
  read : manifestContent format bytes = .ok content
  stated : format.canonicalJson manifest = .ok canonical
  decoded : textDecode content = some canonical

variable {format}

theorem readManifest_spec {content : Bytes} {manifest : Manifest}
    (h : readManifest format content = .ok manifest) :
    ∃ canonical, format.canonicalJson manifest = .ok canonical ∧
      textDecode content = some canonical := by
  obtain ⟨manifestText, hText, h⟩ := bind_eq_ok.mp h
  obtain ⟨parsed, -, h⟩ := bind_eq_ok.mp h
  obtain ⟨canonical, hCanonical, h⟩ := bind_eq_ok.mp h
  simp only [throws] at h
  split at h
  · cases h
  rename_i hSame
  cases h
  rw [bne_iff_ne, ne_eq, Decidable.not_not] at hSame
  subst hSame
  exact ⟨canonical, hCanonical, text_eq_ok hText⟩

theorem readPortableArchive_spec {bytes : Bytes}
    {package : ReadPackage Manifest}
    (h : readPortableArchive format bytes = .ok package) :
    ∃ content canonical,
      ManifestRead format bytes package.manifest content canonical := by
  simp only [readPortableArchive, throws] at h
  split at h
  · cases h
  obtain ⟨entries, hEntries, h⟩ := bind_eq_ok.mp h
  split at h
  · cases h
  rename_i entry hEntry
  obtain ⟨content, hContent, h⟩ := bind_eq_ok.mp h
  obtain ⟨manifest, hManifest, h⟩ := bind_eq_ok.mp h
  split at h
  · cases h
  split at h
  · cases h
  obtain ⟨files, -, h⟩ := bind_eq_ok.mp h
  obtain ⟨-, -, h⟩ := bind_eq_ok.mp h
  cases h
  obtain ⟨canonical, hCanonical, hDecoded⟩ := readManifest_spec hManifest
  refine ⟨content, canonical, ?_, hCanonical, hDecoded⟩
  rw [manifestContent, hEntries, ok_bind]
  simp only [hEntry]
  exact hContent

/-- The bytes of a manifest are those of its canonical text unless they begin
with a mark. -/
theorem ManifestRead.content_eq_iff {bytes : Bytes} {manifest : Manifest}
    {content : Bytes} {canonical : JsString}
    (h : ManifestRead format bytes manifest content canonical) :
    content = utf8 canonical ↔ hasMark content = false := by
  have hBytes := utf8_decodeUtf8 h.decoded
  rw [dropMark] at hBytes
  rw [hasMark]
  constructor
  · intro hContent
    rw [← hContent] at hBytes
    by_contra hMark
    rw [Bool.not_eq_false] at hMark
    rw [if_pos hMark] at hBytes
    obtain ⟨rest, hRest⟩ := List.isPrefixOf_iff_prefix.mp hMark
    have hLength := congrArg List.length hBytes
    have hLong := congrArg List.length hRest
    rw [List.length_append] at hLong
    rw [List.length_drop] at hLength
    have hThree : byteOrderMark.length = 3 := rfl
    omega
  · intro hMark
    rw [hMark, if_neg Bool.false_ne_true] at hBytes
    exact hBytes.symm

/-- Of two archives with one manifest the bytes of the manifests are the same
exactly where both have a mark or neither has. -/
theorem ManifestRead.content_eq {bytes bytes' : Bytes} {manifest : Manifest}
    {content content' : Bytes} {canonical canonical' : JsString}
    (h : ManifestRead format bytes manifest content canonical)
    (h' : ManifestRead format bytes' manifest content' canonical') :
    content = content' ↔ hasMark content = hasMark content' := by
  refine ⟨congrArg hasMark, fun hMark => ?_⟩
  have hSame : canonical = canonical' :=
    Except.ok.inj (h.stated.symm.trans h'.stated)
  subst hSame
  exact eq_of_textDecode h.decoded h'.decoded hMark

/-- Every archive that is accepted reads in one way exactly where each entry's
two names carry the same mark, and its manifest is the bytes of the canonical
text exactly where it carries none. -/
theorem archive_one_reading_iff (format : Format Manifest) :
    (∀ bytes entries, archiveEntries bytes = .ok entries →
      ∃ record, endRecord bytes = .ok record ∧
        (OneReading bytes record entries ↔
          MarksAgree bytes record entries)) ∧
    (∀ bytes package, readPortableArchive format bytes = .ok package →
      ∃ content canonical,
        ManifestRead format bytes package.manifest content canonical ∧
        (content = utf8 canonical ↔ hasMark content = false)) ∧
    ∀ bytes bytes' manifest content content' canonical canonical',
      ManifestRead format bytes manifest content canonical →
      ManifestRead format bytes' manifest content' canonical' →
      (content = content' ↔ hasMark content = hasMark content') := by
  refine ⟨?_, ?_, ?_⟩
  · intro bytes entries h
    obtain ⟨record, hRecord, hAccepted⟩ := archiveEntries_spec h
    exact ⟨record, hRecord, hAccepted.oneReading_iff⟩
  · intro bytes package h
    obtain ⟨content, canonical, hRead⟩ := readPortableArchive_spec h
    exact ⟨content, canonical, hRead, hRead.content_eq_iff⟩
  · intro bytes bytes' manifest content content' canonical canonical' h h'
    exact h.content_eq h'

end

/-! ## Written archives -/

theorem centralReads_written {bytes : Bytes} {members : List Member}
    {cursor offset : Nat}
    (hPlaced : Placed bytes cursor (centralBytes members offset))
    (hReadable : ∀ member ∈ members, member.Readable)
    (hOffset : offset + (localBytes members).length < 0x100000000) :
    List.Forall₂ (fun position placed =>
        CentralRead bytes position placed.1 placed.2)
      (centralOffsets bytes members.length cursor)
      (withOffsets members offset) := by
  induction members generalizing cursor offset with
  | nil => exact .nil
  | cons member members ih =>
      rw [List.forall_mem_cons] at hReadable
      rw [localBytes, List.flatMap_cons, List.length_append, ← Nat.add_assoc]
        at hOffset
      rw [centralBytes] at hPlaced
      have hRead := centralRead_of_placed hPlaced.left hReadable.1.fits
        (by rw [localMember_length] at hOffset; omega)
      have hRight := hPlaced.right
      rw [centralMember_length, ← Nat.add_assoc] at hRight
      have hNext : nextHeader bytes cursor =
          cursor + 46 + member.name.length := by
        rw [nextHeader, hRead.nameLength]
      rw [← hNext] at hRight
      exact .cons hRead (ih hRight hReadable.2 hOffset)

/-- The entries that are read of written members. -/
def entriesOf (members : List Member) : List ZipEntry :=
  (withOffsets members 0).map fun placed => entryOf placed.1 placed.2

/-- The headers of a written archive are its members' headers, in order. -/
theorem header_written {members : List Member} (h : Members members)
    {header : Nat × ZipEntry} (hHeader : header ∈
      headersOf (rawZip members) (recordOf members) (entriesOf members)) :
    ∃ member ∈ members,
      centralName (rawZip members) header.1 = member.name ∧
      localName (rawZip members) header.2.offset = member.localName := by
  have hLength := rawZip_length members
  have hSize := h.size
  have hReads := centralReads_written (placed_central members) h.readable
    (by omega)
  rw [headersOf, entriesOf, List.zip_map_right] at hHeader
  obtain ⟨⟨cursor, placed⟩, hPair, rfl⟩ := List.mem_map.mp hHeader
  obtain ⟨hIn, hLocal⟩ := localRead_of_mem (placed_locals members) h.readable
    placed (List.of_mem_zip hPair).2
  exact ⟨placed.1, hIn, (List.forall₂_zip hReads hPair).name, hLocal.name⟩

/-- Every member has its header. -/
theorem exists_header_written {members : List Member} (h : Members members)
    {member : Member} (hMember : member ∈ members) :
    ∃ header ∈
        headersOf (rawZip members) (recordOf members) (entriesOf members),
      centralName (rawZip members) header.1 = member.name ∧
      localName (rawZip members) header.2.offset = member.localName := by
  have hLength := rawZip_length members
  have hSize := h.size
  have hReads := centralReads_written (placed_central members) h.readable
    (by omega)
  have hFirst : (withOffsets members 0).map Prod.fst = members :=
    withOffsets_fst members 0
  rw [← hFirst] at hMember
  obtain ⟨placed, hPlaced, rfl⟩ := List.mem_map.mp hMember
  have hSecond := List.map_snd_zip (Nat.le_of_eq hReads.length_eq.symm)
  rw [← hSecond] at hPlaced
  obtain ⟨⟨cursor, placed⟩, hPair, rfl⟩ := List.mem_map.mp hPlaced
  refine ⟨(cursor, entryOf placed.1 placed.2), ?_,
    (List.forall₂_zip hReads hPair).name, ?_⟩
  · rw [headersOf, entriesOf, List.zip_map_right]
    exact List.mem_map.mpr ⟨(cursor, placed), hPair, rfl⟩
  · exact (localRead_of_mem (placed_locals members) h.readable placed
      (List.of_mem_zip hPair).2).2.name

/-! ## A package with marks -/

def sampleScript : Bytes := utf8 (js "export async function run() {}")

def sampleManifest : JsString :=
  [js "\x7b\"applications\":[],\"compositions",
    js "\":[],\"contentSha256\":\"908d6ce78b",
    js "48a559ddeeae7599aafc90c7b7f7b10e",
    js "7cc45455f4c23763bdcde9\",\"entry\":",
    js "\x7b\"key\":\"f\",\"kind\":\"pod\"\x7d,\"files\"",
    js ":[\x7b\"bytes\":30,\"kind\":\"script\",\"m",
    js "ediaType\":\"text/javascript\",\"pat",
    js "h\":\"run.mjs\",\"sha256\":\"29acb0202",
    js "08fe1e15b6f10514d31538f4f2e57ad9",
    js "3c0f705fe90f7533d48c1df\"\x7d],\"form",
    js "at\":\"openape-package\",\"package\":",
    js "\x7b\"description\":\"\",\"key\":\"f\",\"rev",
    js "ision\":1,\"title\":\"F\"\x7d,\"pods\":[\x7b\"",
    js "access\":[],\"applications\":[],\"as",
    js "sets\":[],\"bindings\":[],\"contract",
    js "\":null,\"description\":\"\",\"inputs\"",
    js ":[],\"key\":\"f\",\"packages\":null,\"r",
    js "equestedCapabilities\":[],\"script",
    js "\":\"run.mjs\",\"title\":\"F\"\x7d],\"requi",
    js "redFeatures\":[\"portable_aliases_",
    js "v1\"],\"version\":1\x7d"].flatten

def storedMember (name localName content : Bytes) (crc : Nat) : Member where
  name := name
  localName := localName
  method := 0
  crc := crc
  stream := content
  expanded := content.length

def manifestMember (manifestMark : Bytes) (crc : Nat) : Member :=
  storedMember (utf8 (js "manifest.json")) (utf8 (js "manifest.json"))
    (manifestMark ++ utf8 sampleManifest) crc

def scriptMember (scriptMark : Bytes) : Member :=
  storedMember (utf8 (js "run.mjs")) (scriptMark ++ utf8 (js "run.mjs"))
    sampleScript 3572412338

theorem supported_stored (name localName content : Bytes) (crc : Nat) :
    isUnsupported (listedEntry (storedMember name localName content crc) 0)
      (storedMember name localName content crc).attributes = false := by
  simp only [isUnsupported, listedEntry, storedMember]
  decide

/-- A package of one script, with marks before the manifest's text and before
the script's local name. -/
def sampleMembers (manifestMark scriptMark : Bytes) (crc : Nat) :
    List Member :=
  [manifestMember manifestMark crc, scriptMember scriptMark]

def plainMembers : List Member := sampleMembers [] [] 3798067182

def markedMembers : List Member :=
  sampleMembers byteOrderMark byteOrderMark 3282634180

/-- The runtime's functions and the manifest's parser, on the sample. -/
def sampleFormat (manifestCrc : Nat) (digest : String) : Format Unit where
  inflateRaw := fun _ _ => none
  crc32 := fun content =>
    if content = sampleScript then 3572412338 else manifestCrc
  sha256 := fun _ => js digest
  parseManifest := fun text =>
    if text = sampleManifest then .ok () else PortableValues.fail "invalid"
  canonicalJson := fun _ => .ok sampleManifest
  files := fun _ => [{ path := js "run.mjs", bytes := 30 }]
  validateFiles := fun _ _ => .ok ()

def markedFormat : Format Unit :=
  sampleFormat 3282634180
    "c957461695107fa7701a55889f93759bbb0d20d8a5c7ac10ddd1de508b5a7c00"

def plainFormat : Format Unit :=
  sampleFormat 3798067182
    "00da62df5ad07e8e0732ac3af07f212287fc339428277422909bfd207ddb119b"

/-- The bytes of the two names, of which the second may have a mark. -/
theorem sampleNames :
    (utf8 (js "manifest.json")).length = 13 ∧
      (utf8 (js "run.mjs")).length = 7 ∧
      textDecode (utf8 (js "manifest.json")) = some (js "manifest.json") ∧
      textDecode (utf8 (js "run.mjs")) = some (js "run.mjs") ∧
      textDecode (byteOrderMark ++ utf8 (js "run.mjs")) =
        some (js "run.mjs") := by
  decide +kernel

/-- The two paths are portable and differ. -/
theorem samplePaths :
    portablePath (some (.string (js "manifest.json"))) =
        .ok (js "manifest.json") ∧
      portablePath (some (.string (js "run.mjs"))) = .ok (js "run.mjs") ∧
      [lowerCase (js "manifest.json"), lowerCase (js "run.mjs")].Nodup ∧
      js "run.mjs" ≠ js "manifest.json" := by
  decide

theorem manifestMember_path (manifestMark : Bytes) (crc : Nat) :
    (manifestMember manifestMark crc).path = js "manifest.json" := by
  obtain ⟨-, -, hName, -⟩ := sampleNames
  exact congrArg (Option.getD · []) hName

theorem scriptMember_path (scriptMark : Bytes) :
    (scriptMember scriptMark).path = js "run.mjs" := by
  obtain ⟨-, -, -, hName, -⟩ := sampleNames
  exact congrArg (Option.getD · []) hName

theorem sampleManifest_units :
    sampleManifest.all isAscii = true ∧ sampleManifest.length = 657 := by
  rw [sampleManifest]
  repeat rw [js_ofList]
  decide +kernel

theorem sampleManifest_length : (utf8 sampleManifest).length = 657 := by
  obtain ⟨hAscii, hLength⟩ := sampleManifest_units
  exact (utf8_length_of_ascii hAscii).trans hLength

theorem sampleScript_length : sampleScript.length = 30 := by decide

theorem sampleMembers_length (manifestMark scriptMark : Bytes) (crc : Nat) :
    (rawZip (sampleMembers manifestMark scriptMark crc)).length =
      901 + manifestMark.length + scriptMark.length := by
  obtain ⟨hManifest, hScript, -⟩ := sampleNames
  rw [← rawZip_length]
  simp only [sampleMembers, manifestMember, scriptMember, storedMember,
    localBytes, List.flatMap_cons,
    List.flatMap_nil, centralBytes, List.length_append, List.length_nil,
    localMember_length, centralMember_length, hManifest, hScript,
    sampleManifest_length, sampleScript_length]
  omega

theorem manifestMember_readable {manifestMark : Bytes} {crc : Nat}
    (hMark : manifestMark.length ≤ 3) (hCrc : crc < 0x100000000) :
    (manifestMember manifestMark crc).Readable := by
  obtain ⟨hName, -, hText, -⟩ := sampleNames
  obtain ⟨hPortable, -⟩ := samplePaths
  have hStream : (manifestMark ++ utf8 sampleManifest).length =
      manifestMark.length + 657 := by
    rw [List.length_append, sampleManifest_length]
  have hPath := manifestMember_path manifestMark crc
  have hAsset : 660 ≤ portableFileLimits .asset := by decide
  have hLimit : 660 ≤ PortableValues.manifestBytes := by decide
  exact {
    fits := {
      name := hName.trans_lt (by decide)
      localName := hName.trans_lt (by decide)
      method := (by decide : 0 < 0x10000)
      crc := hCrc
      stream := hStream.trans_lt (by omega)
      expanded := hStream.trans_lt (by omega)
      attributes := (by decide : 0o100600 <<< 16 < 0x100000000) }
    name := by rw [hPath]; exact hText
    localName := by rw [hPath]; exact hText
    path := by rw [hPath]; exact hPortable
    nameLength := by
      have hLength : (manifestMember manifestMark crc).name.length = 13 := hName
      omega
    supported := supported_stored _ _ _ _
    expanded := Nat.le_trans (Nat.le_of_eq hStream) (by omega)
    manifest := fun _ => Nat.le_trans (Nat.le_of_eq hStream) (by omega)
    stored := fun _ => rfl }

theorem scriptMember_readable {scriptMark : Bytes}
    (hMark : scriptMark.length ≤ 3)
    (hName : textDecode (scriptMark ++ utf8 (js "run.mjs")) =
      some (js "run.mjs")) : (scriptMember scriptMark).Readable := by
  obtain ⟨-, hLength, -, hText, -⟩ := sampleNames
  obtain ⟨-, hPortable, -, hDiffer⟩ := samplePaths
  have hLocal : (scriptMark ++ utf8 (js "run.mjs")).length =
      scriptMark.length + 7 := by
    rw [List.length_append, hLength]
  have hPath := scriptMember_path scriptMark
  exact {
    fits := {
      name := hLength.trans_lt (by decide)
      localName := hLocal.trans_lt (by omega)
      method := (by decide : 0 < 0x10000)
      crc := (by decide : 3572412338 < 0x100000000)
      stream := sampleScript_length.trans_lt (by decide)
      expanded := sampleScript_length.trans_lt (by decide)
      attributes := (by decide : 0o100600 <<< 16 < 0x100000000) }
    name := by rw [hPath]; exact hText
    localName := by rw [hPath]; exact hName
    path := by rw [hPath]; exact hPortable
    nameLength := by
      have hSeven : (scriptMember scriptMark).name.length = 7 := hLength
      omega
    supported := supported_stored _ _ _ _
    expanded := Nat.le_trans (Nat.le_of_eq sampleScript_length) (by decide)
    manifest := fun hManifest => by
      rw [hPath] at hManifest
      exact absurd hManifest hDiffer
    stored := fun _ => rfl }

/-- The sample is an archive within the limits, for marks that the decoder
drops. -/
theorem members_sample {manifestMark scriptMark : Bytes} {crc : Nat}
    (hManifest : manifestMark.length ≤ 3) (hScript : scriptMark.length ≤ 3)
    (hCrc : crc < 0x100000000)
    (hName : textDecode (scriptMark ++ utf8 (js "run.mjs")) =
      some (js "run.mjs")) :
    Members (sampleMembers manifestMark scriptMark crc) where
  readable := List.forall_mem_cons.mpr
    ⟨manifestMember_readable hManifest hCrc,
      List.forall_mem_singleton.mpr (scriptMember_readable hScript hName)⟩
  paths := by
    simp only [sampleMembers, List.map_cons, List.map_nil, manifestMember_path,
      scriptMember_path]
    exact samplePaths.2.2.1
  total := by
    have hLimit : 700 ≤ expandedBytes := by decide
    simp only [sampleMembers, totalExpanded, List.map_cons, List.map_nil,
      List.sum_cons, List.sum_nil, manifestMember, scriptMember, storedMember,
      List.length_append, sampleManifest_length, sampleScript_length]
    omega
  some := List.cons_ne_nil _ _
  count := (by decide : 2 ≤ filesLimit)
  size := by
    rw [sampleMembers_length]
    omega

theorem members_marked : Members markedMembers :=
  members_sample (by decide) (by decide) (by decide) sampleNames.2.2.2.2

theorem members_plain : Members plainMembers :=
  members_sample (by decide) (by decide) (by decide) sampleNames.2.2.2.1

theorem sampleFormat_crc {crc : Nat} {content : Bytes} (digest : String)
    (h : content.length ≠ 30) :
    (sampleFormat crc digest).crc32 content = crc := by
  refine if_neg fun hSame => h ?_
  rw [hSame, sampleScript_length]

theorem readEntries_of_steps {Manifest : Type} {format : Format Manifest}
    {bytes content : Bytes} {entries : List ZipEntry} {entry : ZipEntry}
    {manifest : Manifest} {files : List (JsString × Bytes)}
    (hEntry : entries.find? isManifestEntry = some entry)
    (hContent : expand format bytes entry = .ok content)
    (hManifest : readManifest format content = .ok manifest)
    (hCount : entries.length = (format.files manifest).length + 1)
    (hDeclared : (entries.filter fun entry => !isManifestEntry entry).all
      (isDeclared (format.files manifest)))
    (hFiles : (entries.filter fun entry => !isManifestEntry entry).mapM
      (fun entry => do
        let content ← expand format bytes entry
        return (entry.path, content)) = .ok files)
    (hValid : format.validateFiles manifest files = .ok ()) :
    readEntries format bytes entries = .ok {
      manifest := manifest
      files := files
      transferSha256 := format.sha256 bytes } := by
  have hCounted : ¬ (entries.length != (format.files manifest).length + 1) := by
    rw [hCount, bne_self_eq_false]
    exact Bool.false_ne_true
  have hAll : ¬ (!(entries.filter fun entry => !isManifestEntry entry).all
      (isDeclared (format.files manifest))) := by
    rw [hDeclared]
    exact Bool.false_ne_true
  simp only [readEntries, hEntry, hContent, ok_bind, hManifest]
  rw [if_neg hCounted, if_neg hAll, hFiles, ok_bind, hValid, ok_bind]
  rfl

section

variable (manifestMark scriptMark : Bytes) (crc : Nat) (digest : String)

theorem isManifestEntry_manifest (offset : Nat) :
    isManifestEntry (entryOf (manifestMember manifestMark crc) offset) =
      true := by
  rw [isManifestEntry, entryOf_path, manifestMember_path]
  exact beq_self_eq_true _

theorem isManifestEntry_script (offset : Nat) :
    isManifestEntry (entryOf (scriptMember scriptMark) offset) = false := by
  rw [isManifestEntry, entryOf_path, scriptMember_path]
  exact beq_false_of_ne samplePaths.2.2.2

/-- The sample is read, whatever marks it carries. -/
theorem readEntries_sample
    (h : Members (sampleMembers manifestMark scriptMark crc))
    (hCrc : (sampleFormat crc digest).crc32
      (manifestMark ++ utf8 sampleManifest) = crc)
    (hText : textDecode (manifestMark ++ utf8 sampleManifest) =
      some sampleManifest) :
    (readEntries (sampleFormat crc digest)
      (rawZip (sampleMembers manifestMark scriptMark crc))
      (entriesOf (sampleMembers manifestMark scriptMark crc))).isOk = true ∧
    manifestContent (sampleFormat crc digest)
      (rawZip (sampleMembers manifestMark scriptMark crc)) =
        .ok (manifestMark ++ utf8 sampleManifest) := by
  have hEntries : entriesOf (sampleMembers manifestMark scriptMark crc) =
      [entryOf (manifestMember manifestMark crc) 0,
        entryOf (scriptMember scriptMark)
          (0 + (localMember (manifestMember manifestMark crc)).length)] := rfl
  have hScriptCrc : (sampleFormat crc digest).crc32
      (scriptMember scriptMark).stream = (scriptMember scriptMark).crc := by
    simp only [sampleFormat, scriptMember, storedMember, if_true]
  have hFirst : (manifestMember manifestMark crc, 0) ∈
      withOffsets (sampleMembers manifestMark scriptMark crc) 0 :=
    List.mem_cons_self
  have hSecond : (scriptMember scriptMark,
      0 + (localMember (manifestMember manifestMark crc)).length) ∈
        withOffsets (sampleMembers manifestMark scriptMark crc) 0 :=
    List.mem_cons_of_mem _ List.mem_cons_self
  have hManifest := expand_written (sampleFormat crc digest) h hFirst rfl hCrc
  have hScript :=
    expand_written (sampleFormat crc digest) h hSecond rfl hScriptCrc
  have hFind : (entriesOf (sampleMembers manifestMark scriptMark crc)).find?
      isManifestEntry = some (entryOf (manifestMember manifestMark crc) 0) := by
    rw [hEntries]
    exact List.find?_cons_of_pos (isManifestEntry_manifest _ _ _)
  have hOthers : (entriesOf (sampleMembers manifestMark scriptMark crc)).filter
      (fun entry => !isManifestEntry entry) = [entryOf (scriptMember scriptMark)
        (0 + (localMember (manifestMember manifestMark crc)).length)] := by
    rw [hEntries]
    simp [isManifestEntry_manifest, isManifestEntry_script]
  have hRead : readManifest (sampleFormat crc digest)
      (manifestMark ++ utf8 sampleManifest) = .ok () := by
    rw [readManifest, PortableArchive.text, hText]
    dsimp only [sampleFormat]
    rw [ok_bind, if_pos (Eq.refl _), ok_bind, ok_bind, bne_self_eq_false]
    exact if_neg Bool.false_ne_true
  have hDeclared : ((entriesOf (sampleMembers manifestMark scriptMark
      crc)).filter fun entry => !isManifestEntry entry).all
        (isDeclared [{ path := js "run.mjs", bytes := 30 }]) = true := by
    have hBytes : 30 = sampleScript.length := sampleScript_length.symm
    rw [hOthers]
    simp only [isDeclared, List.all_cons, List.all_nil, entryOf_path,
      scriptMember_path, List.find?_cons, decide_true]
    exact (Bool.and_true _).trans (beq_iff_eq.mpr hBytes)
  have hFiles : ((entriesOf (sampleMembers manifestMark scriptMark crc)).filter
      fun entry => !isManifestEntry entry).mapM (fun entry => do
        let content ← expand (sampleFormat crc digest)
          (rawZip (sampleMembers manifestMark scriptMark crc)) entry
        return (entry.path, content)) =
      .ok [(js "run.mjs", sampleScript)] := by
    rw [hOthers]
    simp only [List.mapM_cons, List.mapM_nil, hScript, ok_bind, entryOf_path,
      scriptMember_path, pure_bind]
    rfl
  constructor
  · rw [readEntries_of_steps hFind hManifest hRead rfl hDeclared hFiles rfl]
    rfl
  · rw [manifestContent_of_entries (archiveEntries_rawZip h)]
    have hFound : ((withOffsets (sampleMembers manifestMark scriptMark crc)
        0).map fun placed => entryOf placed.1 placed.2).find? isManifestEntry =
          some (entryOf (manifestMember manifestMark crc) 0) := hFind
    rw [hFound]
    exact hManifest

end

theorem sampleText_decodes (manifestMark : Bytes)
    (h : dropMark (manifestMark ++ utf8 sampleManifest) =
      utf8 sampleManifest) :
    textDecode (manifestMark ++ utf8 sampleManifest) = some sampleManifest := by
  rw [textDecode, h]
  exact decodeUtf8_utf8 (wellPaired_of_ascii sampleManifest_units.1)

theorem marked_read :
    (readEntries markedFormat (rawZip markedMembers)
      (entriesOf markedMembers)).isOk = true ∧
    manifestContent markedFormat (rawZip markedMembers) =
      .ok (byteOrderMark ++ utf8 sampleManifest) := by
  refine readEntries_sample _ _ _ _ members_marked
    (sampleFormat_crc _ ?_) (sampleText_decodes _ rfl)
  rw [List.length_append, sampleManifest_length]
  decide

theorem sampleManifest_unmarked : hasMark (utf8 sampleManifest) = false := by
  decide

theorem plain_read :
    (readEntries plainFormat (rawZip plainMembers)
      (entriesOf plainMembers)).isOk = true ∧
    manifestContent plainFormat (rawZip plainMembers) =
      .ok (utf8 sampleManifest) := by
  refine readEntries_sample _ _ _ _ members_plain
    (sampleFormat_crc _ ?_) (sampleText_decodes _ (if_neg ?_))
  · rw [List.nil_append, sampleManifest_length]
    decide
  · rw [Bool.not_eq_true]
    exact sampleManifest_unmarked

theorem rawZip_length_le {members : List Member}
    (h : (rawZip members).length ≤ transferBytes) (format : Format Unit)
    (hMembers : Members members)
    (hRead : (readEntries format (rawZip members)
      (entriesOf members)).isOk = true) :
    (readPortableArchive format (rawZip members)).isOk = true := by
  rw [readPortableArchive_of_entries h (archiveEntries_rawZip hMembers)]
  exact hRead

/-- An archive with a mark before the script's local name and one before the
manifest's text is accepted. -/
theorem archive_reads_twice :
    (readPortableArchive markedFormat (rawZip markedMembers)).isOk = true ∧
    (∃ entries, archiveEntries (rawZip markedMembers) = .ok entries ∧
      ∀ record, endRecord (rawZip markedMembers) = .ok record →
        ¬ OneReading (rawZip markedMembers) record entries) ∧
    ∃ content, manifestContent markedFormat (rawZip markedMembers) =
        .ok content ∧ content ≠ utf8 sampleManifest := by
  have hLength : (rawZip markedMembers).length ≤ transferBytes := by
    rw [markedMembers, sampleMembers_length]
    decide
  refine ⟨rawZip_length_le hLength _ members_marked marked_read.1,
    ⟨entriesOf markedMembers, archiveEntries_rawZip members_marked, ?_⟩,
    ⟨byteOrderMark ++ utf8 sampleManifest, marked_read.2, ?_⟩⟩
  · intro record hRecord hOne
    rw [endRecord_rawZip members_marked] at hRecord
    have hSameRecord := Except.ok.inj hRecord
    subst hSameRecord
    obtain ⟨header, hHeader, hCentral, hLocal⟩ := exists_header_written
      members_marked (List.mem_cons_of_mem _ List.mem_cons_self :
        scriptMember byteOrderMark ∈ markedMembers)
    have hSame := hOne.names header hHeader
    rw [hCentral, hLocal] at hSame
    exact absurd (congrArg List.length hSame) (by decide)
  · intro hSame
    have hLengths := congrArg List.length hSame
    rw [List.length_append] at hLengths
    exact absurd hLengths (Nat.ne_of_gt (Nat.lt_add_of_pos_left (by decide)))

theorem archive_one_reading_sample :
    (∃ record, endRecord (rawZip plainMembers) = .ok record ∧
      OneReading (rawZip plainMembers) record (entriesOf plainMembers)) ∧
    ∃ content canonical,
      ManifestRead plainFormat (rawZip plainMembers) () content canonical ∧
      content = utf8 canonical := by
  obtain ⟨hArchive, hPackage, -⟩ := archive_one_reading_iff plainFormat
  have hLength : (rawZip plainMembers).length ≤ transferBytes := by
    rw [plainMembers, sampleMembers_length]
    decide
  constructor
  · obtain ⟨record, hRecord, hIff⟩ :=
      hArchive _ _ (archiveEntries_rawZip members_plain)
    refine ⟨record, hRecord, hIff.mpr fun header hHeader => ?_⟩
    rw [endRecord_rawZip members_plain] at hRecord
    have hSameRecord := Except.ok.inj hRecord
    subst hSameRecord
    obtain ⟨member, hMember, hCentral, hLocal⟩ :=
      header_written members_plain hHeader
    have hNames : ∀ member ∈ plainMembers, member.name = member.localName := by
      rw [plainMembers, sampleMembers, List.forall_mem_cons,
        List.forall_mem_singleton]
      exact ⟨rfl, rfl⟩
    rw [hCentral, hLocal, hNames member hMember]
  · obtain ⟨package, hRead⟩ := isOk_iff.mp
      (rawZip_length_le hLength _ members_plain plain_read.1)
    obtain ⟨content, canonical, hManifest, hIff⟩ := hPackage _ _ hRead
    refine ⟨content, canonical, hManifest, hIff.mpr ?_⟩
    rw [Except.ok.inj (hManifest.read.symm.trans plain_read.2)]
    exact sampleManifest_unmarked

end OpenApe.Ports.ArchiveReading
