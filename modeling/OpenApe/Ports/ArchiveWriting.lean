import OpenApe.Ports.PortableArchive
import OpenApe.Verified.Chunks

/-!
# Archives as they are written (`sharing-archive.test.ts`)

The bytes of an archive with standard headers: each member once, after a local
header with its sizes and its checksum, then the directory and an end record of
22 bytes.  A member's two names are separate, as the tests write them apart.
-/

namespace OpenApe.Ports.ArchiveWriting

open Verified.Chunks Verified.Fallible Verified.JsText Verified.Utf8Decode
open PortableValues PortableArchive

/-! ## Numbers -/

/-- `writeUInt16LE` -/
def le16 (n : Nat) : Bytes := [n.toUInt8, (n / 0x100).toUInt8]

/-- `writeUInt32LE` -/
def le32 (n : Nat) : Bytes := le16 n ++ le16 (n / 0x10000)

@[simp] theorem le16_length (n : Nat) : (le16 n).length = 2 := rfl

@[simp] theorem le32_length (n : Nat) : (le32 n).length = 4 := rfl

/-! ## Members -/

/-- What is written of a file: its names, how its bytes are stored, and the
fields that readers pass over. -/
structure Member where
  name : Bytes
  localName : Bytes
  method : Nat
  crc : Nat
  stream : Bytes
  expanded : Nat
  version : Nat := 20
  made : Nat := 0x314
  time : Nat := 0
  attributes : Nat := 0o100600 <<< 16

/-- The fields that both headers have in common. -/
def Member.common (member : Member) : Bytes :=
  le16 0 ++ le16 member.method ++ le32 member.time ++ le32 member.crc ++
    le32 member.stream.length ++ le32 member.expanded

def localHeader (member : Member) : Bytes :=
  le32 0x04034B50 ++ le16 member.version ++ member.common ++
    le16 member.localName.length ++ le16 0

def localMember (member : Member) : Bytes :=
  localHeader member ++ member.localName ++ member.stream

def centralHeader (member : Member) (offset : Nat) : Bytes :=
  le32 0x02014B50 ++ le16 member.made ++ le16 member.version ++
    member.common ++ le16 member.name.length ++ le32 0 ++ le32 0 ++
    le32 member.attributes ++ le32 offset

def centralMember (member : Member) (offset : Nat) : Bytes :=
  centralHeader member offset ++ member.name

/-! ## Archives -/

def localBytes (members : List Member) : Bytes :=
  members.flatMap localMember

/-- The directory of members whose local entries begin at an offset. -/
def centralBytes : List Member → Nat → Bytes
  | [], _ => []
  | member :: members, offset =>
      centralMember member offset ++
        centralBytes members (offset + (localMember member).length)

def endBytes (count size directory : Nat) : Bytes :=
  le32 0x06054B50 ++ le32 0 ++ le16 count ++ le16 count ++ le32 size ++
    le32 directory ++ le16 0

def rawZip (members : List Member) : Bytes :=
  let locals := localBytes members
  let central := centralBytes members 0
  locals ++ central ++
    endBytes members.length central.length locals.length

/-! ## Reading what is written -/

theorem byteAt_of_placed {bytes chunk : Bytes} {i j : Nat}
    (h : Placed bytes i chunk) (hj : j < chunk.length) :
    byteAt bytes (i + j) = byteAt chunk j := by
  rw [byteAt, byteAt, List.getD_eq_getElem?_getD, List.getD_eq_getElem?_getD,
    h.getElem? hj]

theorem u16_placed_mod {bytes : Bytes} {i n : Nat}
    (h : Placed bytes i (le16 n)) : u16 bytes i = n % 0x10000 := by
  have hLow : byteAt bytes i = n % 0x100 := byteAt_of_placed h (j := 0) (by simp)
  have hHigh : byteAt bytes (i + 1) = n / 0x100 % 0x100 :=
    byteAt_of_placed h (j := 1) (by simp)
  rw [u16, hLow, hHigh]
  omega

theorem u16_of_placed {bytes : Bytes} {i n : Nat}
    (h : Placed bytes i (le16 n)) (hn : n < 0x10000) : u16 bytes i = n := by
  rw [u16_placed_mod h, Nat.mod_eq_of_lt hn]

theorem u32_of_placed {bytes : Bytes} {i n : Nat}
    (h : Placed bytes i (le32 n)) (hn : n < 0x100000000) :
    u32 bytes i = n := by
  have hHigh : u16 bytes (i + 2) = n / 0x10000 % 0x10000 :=
    u16_placed_mod h.right
  rw [u32, u16_placed_mod h.left, hHigh]
  omega

/-! ## Headers -/

/-- The fields of a member fit their places in the headers. -/
structure Member.Fits (member : Member) : Prop where
  name : member.name.length < 0x10000
  localName : member.localName.length < 0x10000
  method : member.method < 0x10000
  crc : member.crc < 0x100000000
  stream : member.stream.length < 0x100000000
  expanded : member.expanded < 0x100000000
  attributes : member.attributes < 0x100000000

/-- The readings of the fields that both headers have, from where these
begin. -/
structure CommonRead (bytes : Bytes) (i : Nat) (member : Member) : Prop where
  flags : u16 bytes i = 0
  method : u16 bytes (i + 2) = member.method
  crc : u32 bytes (i + 8) = member.crc
  compressed : u32 bytes (i + 12) = member.stream.length
  expanded : u32 bytes (i + 16) = member.expanded

theorem commonRead_of_placed {bytes : Bytes} {i : Nat} {member : Member}
    (h : Placed bytes i member.common) (hFits : member.Fits) :
    CommonRead bytes i member where
  flags := u16_of_placed h.left.left.left.left.left (by decide)
  method := u16_of_placed h.left.left.left.left.right hFits.method
  crc := u32_of_placed h.left.left.right hFits.crc
  compressed := u32_of_placed h.left.right hFits.stream
  expanded := u32_of_placed h.right hFits.expanded

/-- The readings of a local header. -/
structure LocalRead (bytes : Bytes) (offset : Nat) (member : Member) :
    Prop where
  signature : u32 bytes offset = 0x04034B50
  common : CommonRead bytes (offset + 6) member
  nameLength : u16 bytes (offset + 26) = member.localName.length
  extra : u16 bytes (offset + 28) = 0
  name : localName bytes offset = member.localName
  stream : subarray bytes (offset + 30 + member.localName.length)
    (offset + 30 + member.localName.length + member.stream.length) =
      member.stream

theorem localRead_of_placed {bytes : Bytes} {offset : Nat} {member : Member}
    (h : Placed bytes offset (localMember member)) (hFits : member.Fits) :
    LocalRead bytes offset member := by
  have hHeader : Placed bytes offset (localHeader member) := h.left.left
  have hName : Placed bytes (offset + 30) member.localName := h.left.right
  have hStream : Placed bytes (offset + 30 + member.localName.length)
      member.stream := by
    have hRight := h.right
    rw [List.length_append, ← Nat.add_assoc] at hRight
    exact hRight
  have hLength : u16 bytes (offset + 26) = member.localName.length :=
    u16_of_placed hHeader.left.right hFits.localName
  exact {
    signature := u32_of_placed hHeader.left.left.left.left (by decide)
    common := commonRead_of_placed hHeader.left.left.right hFits
    nameLength := hLength
    extra := u16_of_placed hHeader.right (by decide)
    name := by
      rw [localName, hLength]
      exact hName.take_drop
    stream := hStream.take_drop }

/-- The readings of a header of the directory. -/
structure CentralRead (bytes : Bytes) (cursor : Nat) (member : Member)
    (offset : Nat) : Prop where
  signature : u32 bytes cursor = 0x02014B50
  common : CommonRead bytes (cursor + 8) member
  nameLength : u16 bytes (cursor + 28) = member.name.length
  extra : u32 bytes (cursor + 30) = 0
  disk : u16 bytes (cursor + 34) = 0
  attributes : u32 bytes (cursor + 38) = member.attributes
  offset : u32 bytes (cursor + 42) = offset
  name : centralName bytes cursor = member.name

theorem centralRead_of_placed {bytes : Bytes} {cursor offset : Nat}
    {member : Member} (h : Placed bytes cursor (centralMember member offset))
    (hFits : member.Fits) (hOffset : offset < 0x100000000) :
    CentralRead bytes cursor member offset := by
  have hHeader : Placed bytes cursor (centralHeader member offset) := h.left
  have hName : Placed bytes (cursor + 46) member.name := h.right
  have hLength : u16 bytes (cursor + 28) = member.name.length :=
    u16_of_placed hHeader.left.left.left.left.right hFits.name
  exact {
    signature :=
      u32_of_placed hHeader.left.left.left.left.left.left.left.left (by decide)
    common :=
      commonRead_of_placed hHeader.left.left.left.left.left.right hFits
    nameLength := hLength
    extra := u32_of_placed hHeader.left.left.left.right (by decide)
    disk := u16_of_placed (n := 0) hHeader.left.left.right.left (by decide)
    attributes := u32_of_placed hHeader.left.right hFits.attributes
    offset := u32_of_placed hHeader.right hOffset
    name := by
      rw [centralName, nextHeader, hLength]
      exact hName.take_drop }

/-! ## The entries that are read -/

/-- The path that a member's name decodes to. -/
def Member.path (member : Member) : JsString :=
  (textDecode member.name).getD []

/-- Members with the offsets of their local entries. -/
def withOffsets : List Member → Nat → List (Member × Nat)
  | [], _ => []
  | member :: members, offset =>
      (member, offset) ::
        withOffsets members (offset + (localMember member).length)

theorem withOffsets_fst (members : List Member) (offset : Nat) :
    (withOffsets members offset).map Prod.fst = members := by
  induction members generalizing offset with
  | nil => rfl
  | cons member members ih =>
      rw [withOffsets, List.map_cons, ih]

/-- The entry of a member as the directory has it. -/
def listedEntry (member : Member) (offset : Nat) : ZipEntry where
  path := member.path
  flags := 0
  method := member.method
  crc := member.crc
  compressed := member.stream.length
  expanded := member.expanded
  offset := offset
  start := 0

def entryOf (member : Member) (offset : Nat) : ZipEntry :=
  { listedEntry member offset with
    start := offset + 30 + member.localName.length }

section

variable (member : Member) (offset : Nat)

@[simp] theorem entryOf_offset : (entryOf member offset).offset = offset := rfl

@[simp] theorem entryOf_start : (entryOf member offset).start =
    offset + 30 + member.localName.length := rfl

@[simp] theorem entryOf_path : (entryOf member offset).path = member.path := rfl

@[simp] theorem entryOf_flags : (entryOf member offset).flags = 0 := rfl

@[simp] theorem entryOf_method :
    (entryOf member offset).method = member.method := rfl

@[simp] theorem entryOf_crc : (entryOf member offset).crc = member.crc := rfl

@[simp] theorem entryOf_compressed :
    (entryOf member offset).compressed = member.stream.length := rfl

@[simp] theorem entryOf_expanded :
    (entryOf member offset).expanded = member.expanded := rfl

end

/-- A member that a reader takes: both names decode to one path, and the
limits and the kinds of entries are kept. -/
structure Member.Readable (member : Member) : Prop where
  fits : member.Fits
  name : textDecode member.name = some member.path
  localName : textDecode member.localName = some member.path
  path : portablePath (some (.string member.path)) = .ok member.path
  nameLength : member.name.length ≠ 0 ∧ member.name.length ≤ 240
  supported : isUnsupported (listedEntry member 0) member.attributes = false
  expanded : member.expanded ≤ portableFileLimits .asset
  manifest : member.path = js "manifest.json" → member.expanded ≤ manifestBytes
  stored : member.method = 0 → member.stream.length = member.expanded

theorem localMember_length (member : Member) :
    (localMember member).length =
      30 + member.localName.length + member.stream.length := by
  rw [localMember, List.length_append, List.length_append]
  rfl

theorem centralMember_length (member : Member) (offset : Nat) :
    (centralMember member offset).length = 46 + member.name.length := by
  rw [centralMember, List.length_append]
  rfl

theorem centralFields_of_read {bytes : Bytes} {cursor offset : Nat}
    {member : Member} (h : CentralRead bytes cursor member offset) :
    centralFields bytes cursor member.path = listedEntry member offset := by
  simp only [centralFields, listedEntry, h.offset, ZipEntry.mk.injEq, true_and,
    and_true]
  exact ⟨h.common.flags, h.common.method, h.common.crc, h.common.compressed,
    h.common.expanded⟩

theorem text_of_decode {bytes : Bytes} {path : JsString}
    (h : textDecode bytes = some path) :
    PortableArchive.text bytes = .ok path := by
  rw [PortableArchive.text, h]

theorem centralEntry_written {bytes : Bytes} {stop cursor total offset : Nat}
    {names : List JsString} {member : Member}
    (hPlaced : Placed bytes cursor (centralMember member offset))
    (hReadable : member.Readable) (hOffset : offset < 0x100000000)
    (hStop : cursor + (centralMember member offset).length ≤ stop)
    (hNames : lowerCase member.path ∉ names)
    (hTotal : total + member.expanded ≤ expandedBytes) :
    centralEntry bytes stop names cursor total =
      .ok (listedEntry member offset) := by
  have hRead := centralRead_of_placed hPlaced hReadable.fits hOffset
  have hNext : nextHeader bytes cursor = cursor + 46 + member.name.length := by
    rw [nextHeader, hRead.nameLength]
  rw [centralMember_length] at hStop
  obtain ⟨hSome, hMost⟩ := hReadable.nameLength
  have hHeader : ¬ (stop < cursor + 46 || u32 bytes cursor != 0x02014B50) := by
    rw [hRead.signature]
    simp
    omega
  have hMetadata : ¬ (u16 bytes (cursor + 28) == 0 ||
      240 < u16 bytes (cursor + 28) || stop < nextHeader bytes cursor ||
      u32 bytes (cursor + 30) != 0 || u16 bytes (cursor + 34) != 0) := by
    rw [hRead.nameLength, hNext, hRead.extra, hRead.disk]
    simp only [Bool.or_eq_true, beq_iff_eq, decide_eq_true_eq,
      bne_self_eq_false, Bool.false_eq_true, or_false]
    omega
  have hNew : ¬ names.contains (lowerCase member.path) := by
    simpa using hNames
  have hSupported : ¬ isUnsupported (listedEntry member offset)
      (u32 bytes (cursor + 38)) := by
    rw [hRead.attributes, Bool.not_eq_true]
    exact hReadable.supported
  have hLimits : ¬ (expandedBytes < total + (listedEntry member offset).expanded
      || portableFileLimits .asset < (listedEntry member offset).expanded ||
      (member.path == js "manifest.json" &&
        manifestBytes < (listedEntry member offset).expanded)) := by
    simp only [Bool.or_eq_true, Bool.and_eq_true, beq_iff_eq,
      decide_eq_true_eq]
    rintro ((hOver | hOver) | ⟨hPath, hOver⟩)
    · exact Nat.not_lt.mpr hTotal hOver
    · exact Nat.not_lt.mpr hReadable.expanded hOver
    · exact Nat.not_lt.mpr (hReadable.manifest hPath) hOver
  have hStored : ¬ ((listedEntry member offset).method == 0 &&
      (listedEntry member offset).compressed !=
        (listedEntry member offset).expanded) := by
    simp only [listedEntry, Bool.and_eq_true, beq_iff_eq, bne_iff_ne, ne_eq,
      not_and, Decidable.not_not]
    exact hReadable.stored
  rw [centralEntry, if_neg hHeader, if_neg hMetadata, hRead.name,
    text_of_decode hReadable.name, ok_bind, hReadable.path, ok_bind,
    if_neg hNew, centralFields_of_read hRead, if_neg hSupported,
    if_neg hLimits, if_neg hStored]

def totalExpanded (members : List Member) : Nat :=
  (members.map Member.expanded).sum

theorem centralEntries_written {bytes : Bytes} {members : List Member}
    {stop cursor total offset : Nat} {names : List JsString}
    (hPlaced : Placed bytes cursor (centralBytes members offset))
    (hReadable : ∀ member ∈ members, member.Readable)
    (hOffset : offset + (localBytes members).length < 0x100000000)
    (hStop : cursor + (centralBytes members offset).length ≤ stop)
    (hNew : ∀ member ∈ members, lowerCase member.path ∉ names)
    (hNodup : (members.map fun member => lowerCase member.path).Nodup)
    (hTotal : total + totalExpanded members ≤ expandedBytes) :
    centralEntries bytes stop members.length names cursor total =
      .ok ((withOffsets members offset).map fun placed =>
          listedEntry placed.1 placed.2,
        cursor + (centralBytes members offset).length) := by
  induction members generalizing cursor total offset names with
  | nil => rfl
  | cons member members ih =>
      rw [List.forall_mem_cons] at hReadable hNew
      rw [List.map_cons, List.nodup_cons] at hNodup
      rw [totalExpanded, List.map_cons, List.sum_cons, ← Nat.add_assoc]
        at hTotal
      rw [localBytes, List.flatMap_cons, List.length_append, ← Nat.add_assoc]
        at hOffset
      rw [centralBytes] at hPlaced
      rw [centralBytes, List.length_append, ← Nat.add_assoc] at hStop
      have hLocal : 0 < (localMember member).length := by
        rw [localMember_length]
        omega
      have hRead := centralRead_of_placed hPlaced.left hReadable.1.fits
        (by omega)
      have hNext : nextHeader bytes cursor =
          cursor + (centralMember member offset).length := by
        rw [nextHeader, hRead.nameLength, centralMember_length, Nat.add_assoc]
      have hHead := centralEntry_written hPlaced.left hReadable.1
        (by omega : offset < 0x100000000) (by omega : _ ≤ stop) hNew.1
        (Nat.le_trans (Nat.le_add_right _ _) hTotal)
      have hNewRest : ∀ other ∈ members,
          lowerCase other.path ∉ lowerCase member.path :: names := by
        intro other hOther hMem
        rcases List.mem_cons.mp hMem with hSame | hOld
        · exact hNodup.1 (List.mem_map.mpr ⟨other, hOther, hSame⟩)
        · exact hNew.2 other hOther hOld
      have hRest := ih hPlaced.right hReadable.2 hOffset hStop hNewRest
        hNodup.2 hTotal
      rw [List.length_cons, centralEntries, hHead, ok_bind, hNext,
        show (listedEntry member offset).expanded = member.expanded from rfl,
        show (listedEntry member offset).path = member.path from rfl, hRest,
        ok_bind, withOffsets, List.map_cons, centralBytes, List.length_append,
        ← Nat.add_assoc]
      rfl

theorem withStart_listed {bytes : Bytes} {offset : Nat} {member : Member}
    (h : LocalRead bytes offset member) :
    withStart bytes (listedEntry member offset) = entryOf member offset := by
  have hStart : (listedEntry member offset).offset = offset := rfl
  rw [withStart, hStart, h.nameLength, h.extra, Nat.add_zero]
  rfl

theorem localEntry_written {bytes : Bytes} {directory offset : Nat}
    {member : Member} (h : LocalRead bytes offset member)
    (hReadable : member.Readable)
    (hInside : offset + (localMember member).length ≤ directory) :
    localEntry bytes directory offset (entryOf member offset) =
      .ok (offset + (localMember member).length) := by
  rw [localMember_length] at hInside ⊢
  have hPlace : ¬ ((entryOf member offset).offset != offset ||
      directory < (entryOf member offset).offset + 30 ||
      u32 bytes (entryOf member offset).offset != 0x04034B50) := by
    simp only [Bool.or_eq_true, bne_iff_ne, ne_eq, decide_eq_true_eq]
    rw [entryOf_offset, h.signature]
    omega
  have hExtra : ¬ (u16 bytes ((entryOf member offset).offset + 28) != 0 ||
      directory < (entryOf member offset).start) := by
    simp only [Bool.or_eq_true, bne_iff_ne, ne_eq, decide_eq_true_eq]
    rw [entryOf_offset, entryOf_start, h.extra]
    omega
  have hNames : ¬ (member.path != (entryOf member offset).path ||
      u16 bytes ((entryOf member offset).offset + 6) !=
        (entryOf member offset).flags ||
      u16 bytes ((entryOf member offset).offset + 8) !=
        (entryOf member offset).method) := by
    simp only [entryOf_offset, entryOf_path, entryOf_flags, entryOf_method,
      h.common.flags, bne_self_eq_false, Bool.false_or, bne_iff_ne, ne_eq,
      Decidable.not_not]
    exact h.common.method
  have hSizes : ¬ (u32 bytes ((entryOf member offset).offset + 14) !=
        (entryOf member offset).crc ||
      u32 bytes ((entryOf member offset).offset + 18) !=
        (entryOf member offset).compressed ||
      u32 bytes ((entryOf member offset).offset + 22) !=
        (entryOf member offset).expanded) := by
    have hCrc : u32 bytes (offset + 14) = member.crc := h.common.crc
    have hCompressed : u32 bytes (offset + 18) = member.stream.length :=
      h.common.compressed
    have hExpanded : u32 bytes (offset + 22) = member.expanded :=
      h.common.expanded
    simp only [entryOf_offset, entryOf_crc, entryOf_compressed,
      entryOf_expanded, hCrc, hCompressed, hExpanded, bne_self_eq_false,
      Bool.or_false, Bool.false_eq_true, not_false_eq_true]
  have hContent : ¬ directory <
      (entryOf member offset).start + (entryOf member offset).compressed := by
    rw [entryOf_start, entryOf_compressed]
    omega
  have hName : PortableArchive.text
      (localName bytes (entryOf member offset).offset) = .ok member.path := by
    rw [entryOf_offset, h.name]
    exact text_of_decode hReadable.localName
  rw [localEntry, if_neg hPlace, if_neg hExtra, hName, ok_bind, if_neg hNames,
    if_neg hSizes, if_neg hContent]
  refine congrArg Except.ok ?_
  rw [entryOf_start, entryOf_compressed]
  omega

theorem localRead_of_mem {bytes : Bytes} {members : List Member} {start : Nat}
    (hPlaced : Placed bytes start (localBytes members))
    (hReadable : ∀ member ∈ members, member.Readable) :
    ∀ placed ∈ withOffsets members start,
      placed.1 ∈ members ∧ LocalRead bytes placed.2 placed.1 := by
  induction members generalizing start with
  | nil => exact fun _ hMem => (nomatch hMem)
  | cons member members ih =>
      rw [List.forall_mem_cons] at hReadable
      rw [localBytes, List.flatMap_cons] at hPlaced
      rw [withOffsets, List.forall_mem_cons]
      refine ⟨⟨List.mem_cons_self,
        localRead_of_placed hPlaced.left hReadable.1.fits⟩, ?_⟩
      intro placed hMem
      obtain ⟨hIn, hRead⟩ := ih hPlaced.right hReadable.2 placed hMem
      exact ⟨List.mem_cons_of_mem _ hIn, hRead⟩

theorem localEntries_written {bytes : Bytes} {members : List Member}
    {start directory : Nat}
    (hPlaced : Placed bytes start (localBytes members))
    (hReadable : ∀ member ∈ members, member.Readable)
    (hInside : start + (localBytes members).length ≤ directory) :
    localEntries bytes directory ((withOffsets members start).map fun placed =>
        entryOf placed.1 placed.2) start =
      .ok (start + (localBytes members).length) := by
  induction members generalizing start with
  | nil => rfl
  | cons member members ih =>
      rw [List.forall_mem_cons] at hReadable
      rw [localBytes, List.flatMap_cons] at hPlaced
      rw [localBytes, List.flatMap_cons, List.length_append, ← Nat.add_assoc]
        at hInside ⊢
      have hRead := localRead_of_placed hPlaced.left hReadable.1.fits
      have hHead := localEntry_written hRead hReadable.1
        (Nat.le_trans (Nat.le_add_right _ _) hInside)
      rw [withOffsets, List.map_cons, localEntries, hHead, ok_bind]
      exact ih hPlaced.right hReadable.2 hInside

/-! ## The archive -/

/-- Members that make an archive within the limits of its reader. -/
structure Members (members : List Member) : Prop where
  readable : ∀ member ∈ members, member.Readable
  paths : (members.map fun member => lowerCase member.path).Nodup
  total : totalExpanded members ≤ expandedBytes
  some : members ≠ []
  count : members.length ≤ filesLimit
  size : (rawZip members).length < 0x100000000

theorem withOffsets_le {members : List Member} {start : Nat} :
    ∀ placed ∈ withOffsets members start, start ≤ placed.2 := by
  induction members generalizing start with
  | nil => exact fun _ hMem => (nomatch hMem)
  | cons member members ih =>
      rw [withOffsets, List.forall_mem_cons]
      exact ⟨Nat.le_refl _, fun placed hMem =>
        Nat.le_trans (Nat.le_add_right _ _) (ih placed hMem)⟩

/-- The entries of an archive that is written stand in order. -/
theorem sortByOffset_written (members : List Member) (start : Nat) :
    sortByOffset ((withOffsets members start).map fun placed =>
        entryOf placed.1 placed.2) =
      (withOffsets members start).map fun placed =>
        entryOf placed.1 placed.2 := by
  refine List.mergeSort_of_pairwise ?_
  rw [List.pairwise_map]
  induction members generalizing start with
  | nil => exact .nil
  | cons member members ih =>
      refine .cons (fun placed hMem => ?_) (ih _)
      have hLater := withOffsets_le placed hMem
      rw [entryOf_offset, entryOf_offset, decide_eq_true_eq]
      omega

theorem endBytes_length (count size directory : Nat) :
    (endBytes count size directory).length = 22 := rfl

theorem endRecord_written {bytes : Bytes} {count size directory : Nat}
    (hPlaced : Placed bytes (bytes.length - 22)
      (endBytes count size directory))
    (hLength : directory + size + 22 = bytes.length)
    (hSize : bytes.length < 0x100000000) (hSome : count ≠ 0)
    (hCount : count ≤ filesLimit) :
    endRecord bytes = .ok {
      stop := directory + size
      count := count
      directory := directory } := by
  have hStop : bytes.length - 22 = directory + size := by omega
  rw [hStop] at hPlaced
  have hFew : count < 0x10000 :=
    Nat.lt_of_le_of_lt hCount (by decide)
  have hSignature : u32 bytes (directory + size) = 0x06054B50 :=
    u32_of_placed hPlaced.left.left.left.left.left.left (by decide)
  have hDisk : u16 bytes (directory + size + 4) = 0 :=
    u16_of_placed (n := 0) hPlaced.left.left.left.left.left.right.left
      (by decide)
  have hStart : u16 bytes (directory + size + 6) = 0 :=
    u16_of_placed (n := 0) hPlaced.left.left.left.left.left.right.right
      (by decide)
  have hHere : u16 bytes (directory + size + 8) = count :=
    u16_of_placed hPlaced.left.left.left.left.right hFew
  have hAll : u16 bytes (directory + size + 10) = count :=
    u16_of_placed hPlaced.left.left.left.right hFew
  have hBytes : u32 bytes (directory + size + 12) = size :=
    u32_of_placed hPlaced.left.left.right (by omega)
  have hDirectory : u32 bytes (directory + size + 16) = directory :=
    u32_of_placed hPlaced.left.right (by omega)
  have hComment : u16 bytes (directory + size + 20) = 0 :=
    u16_of_placed hPlaced.right (by decide)
  simp only [endRecord, hStop, hSignature, hDisk, hStart, hHere, hAll, hBytes,
    hDirectory, hComment, bne_self_eq_false, Bool.or_false]
  rw [if_neg (by simpa using (by omega : 22 ≤ bytes.length)),
    if_neg (by simpa using ⟨hSome, hCount⟩), if_neg Bool.false_ne_true]

theorem placed_locals (members : List Member) :
    Placed (rawZip members) 0 (localBytes members) :=
  (placed_whole (rawZip members)).left.left

theorem placed_central (members : List Member) :
    Placed (rawZip members) (localBytes members).length
      (centralBytes members 0) := by
  have hRight := (placed_whole (rawZip members)).left.right
  rw [Nat.zero_add] at hRight
  exact hRight

/-- The record at the end of written members. -/
def recordOf (members : List Member) : EndRecord where
  stop := (localBytes members).length + (centralBytes members 0).length
  count := members.length
  directory := (localBytes members).length

theorem rawZip_length (members : List Member) :
    (localBytes members).length + (centralBytes members 0).length + 22 =
      (rawZip members).length := by
  rw [rawZip, List.length_append, List.length_append, endBytes_length]

theorem endRecord_rawZip {members : List Member} (h : Members members) :
    endRecord (rawZip members) = .ok (recordOf members) := by
  have hLength := rawZip_length members
  have hEnd : Placed (rawZip members) ((rawZip members).length - 22)
      (endBytes members.length (centralBytes members 0).length
        (localBytes members).length) := by
    have hRight := (placed_whole (rawZip members)).right
    rw [Nat.zero_add, List.length_append] at hRight
    rw [← hLength, Nat.add_sub_cancel]
    exact hRight
  exact endRecord_written hEnd hLength h.size
    (mt List.length_eq_zero_iff.mp h.some) h.count

/-- The reader finds in an archive exactly the members that were written. -/
theorem archiveEntries_rawZip {members : List Member} (h : Members members) :
    archiveEntries (rawZip members) =
      .ok ((withOffsets members 0).map fun placed =>
        entryOf placed.1 placed.2) := by
  obtain ⟨hReadable, hPaths, hTotal, hSome, hCount, hSize⟩ := h
  have hLocals := placed_locals members
  have hCentral := placed_central members
  have hLength := rawZip_length members
  have hRecord := endRecord_rawZip ⟨hReadable, hPaths, hTotal, hSome, hCount,
    hSize⟩
  have hListed : centralEntries (rawZip members)
      ((localBytes members).length + (centralBytes members 0).length)
      members.length [] (localBytes members).length 0 =
        .ok ((withOffsets members 0).map fun placed =>
            listedEntry placed.1 placed.2,
          (localBytes members).length + (centralBytes members 0).length) := by
    refine centralEntries_written hCentral hReadable ?_ (Nat.le_refl _)
      (fun _ _ hMem => (nomatch hMem)) hPaths ?_
    · omega
    · rw [Nat.zero_add]
      exact hTotal
  have hStarts : ((withOffsets members 0).map fun placed =>
        listedEntry placed.1 placed.2).map (withStart (rawZip members)) =
      (withOffsets members 0).map fun placed =>
        entryOf placed.1 placed.2 := by
    rw [List.map_map]
    refine List.map_congr_left fun placed hMem => ?_
    exact withStart_listed (localRead_of_mem hLocals hReadable placed hMem).2
  have hRead := localEntries_written hLocals hReadable
    (Nat.le_of_eq (Nat.zero_add (localBytes members).length))
  rw [Nat.zero_add] at hRead
  simp only [archiveEntries, hRecord, recordOf, ok_bind, hListed, hStarts,
    sortByOffset_written, hRead, bne_self_eq_false, Bool.false_eq_true,
    if_false]

/-- A stored member is read back from where its entry says. -/
theorem expand_written {Manifest : Type} (format : Format Manifest)
    {members : List Member} (h : Members members) {placed : Member × Nat}
    (hMem : placed ∈ withOffsets members 0) (hStored : placed.1.method = 0)
    (hCrc : format.crc32 placed.1.stream = placed.1.crc) :
    expand format (rawZip members) (entryOf placed.1 placed.2) =
      .ok placed.1.stream := by
  obtain ⟨hIn, hRead⟩ :=
    localRead_of_mem (placed_locals members) h.readable placed hMem
  have hLength := (h.readable placed.1 hIn).stored hStored
  simp only [expand, entryOf_start, entryOf_compressed, entryOf_method,
    hStored, beq_self_eq_true, if_true, entryOf_expanded, entryOf_crc,
    hRead.stream]
  have hChecked : ¬ (placed.1.stream.length != placed.1.expanded ||
      format.crc32 placed.1.stream != placed.1.crc) := by
    rw [hLength, hCrc, bne_self_eq_false, bne_self_eq_false]
    exact Bool.false_ne_true
  exact if_neg hChecked

end OpenApe.Ports.ArchiveWriting
