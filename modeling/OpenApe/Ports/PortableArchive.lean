import OpenApe.Ports.PortableValues
import OpenApe.Verified.Tiling
import OpenApe.Verified.Utf8Decode

/-!
# Archives of portable packages (`archive.ts`)

The reader of a package's ZIP archive: the end record, the entries of the
central directory, the local entries they point to, and the package itself.
Offsets come from the archive; each is checked before anything is read there,
so every reading lies in the bytes.

The manifest's own parser, its canonical text and the check of the files are
arguments (`Format`), as are the functions of the runtime.
-/

namespace OpenApe.Ports.PortableArchive

open Verified.JsText Verified.Utf8Decode
open PortableValues

/-! ## Bytes -/

abbrev Bytes := List UInt8

def byteAt (bytes : Bytes) (i : Nat) : Nat := (bytes.getD i 0).toNat

/-- `bytes.readUInt16LE(i)` -/
def u16 (bytes : Bytes) (i : Nat) : Nat :=
  byteAt bytes i + 0x100 * byteAt bytes (i + 1)

/-- `bytes.readUInt32LE(i)` -/
def u32 (bytes : Bytes) (i : Nat) : Nat :=
  u16 bytes i + 0x10000 * u16 bytes (i + 2)

/-- `bytes.subarray(start, stop)` -/
def subarray (bytes : Bytes) (start stop : Nat) : Bytes :=
  (bytes.take stop).drop start

/-- `new Error(message)`, thrown. -/
def throws {α : Type} (message : String) : Checked α := .error (js message)

def text (bytes : Bytes) : Checked JsString :=
  match textDecode bytes with
  | some text => .ok text
  | none => throws "Portable ZIP text requires valid UTF-8"

/-! ## The end record -/

structure EndRecord where
  stop : Nat
  count : Nat
  directory : Nat
  deriving DecidableEq

def endRecord (bytes : Bytes) : Checked EndRecord :=
  let stop := bytes.length - 22
  let count := u16 bytes (stop + 10)
  let size := u32 bytes (stop + 12)
  let directory := u32 bytes (stop + 16)
  if bytes.length < 22 || u32 bytes stop != 0x06054B50 ||
      u16 bytes (stop + 20) != 0 || u16 bytes (stop + 4) != 0 ||
      u16 bytes (stop + 6) != 0 then
    throws "Portable ZIP requires a complete single-volume archive without a comment"
  else if count == 0 || filesLimit < count ||
      u16 bytes (stop + 8) != count then
    throws "Portable ZIP exceeds the 500-file limit or has inconsistent entries"
  else if directory + size != stop then
    throws "Portable ZIP directory is incomplete or inconsistent"
  else .ok { stop := stop, count := count, directory := directory }

/-! ## The central directory -/

structure ZipEntry where
  path : JsString
  flags : Nat
  method : Nat
  crc : Nat
  compressed : Nat
  expanded : Nat
  offset : Nat
  start : Nat
  deriving DecidableEq

/-- Where the directory entry after the one at this position begins. -/
def nextHeader (bytes : Bytes) (cursor : Nat) : Nat :=
  cursor + 46 + u16 bytes (cursor + 28)

def centralName (bytes : Bytes) (cursor : Nat) : Bytes :=
  subarray bytes (cursor + 46) (nextHeader bytes cursor)

/-- The fields of the directory entry at a position. -/
def centralFields (bytes : Bytes) (cursor : Nat) (path : JsString) :
    ZipEntry where
  path := path
  flags := u16 bytes (cursor + 8)
  method := u16 bytes (cursor + 10)
  crc := u32 bytes (cursor + 16)
  compressed := u32 bytes (cursor + 20)
  expanded := u32 bytes (cursor + 24)
  offset := u32 bytes (cursor + 42)
  start := 0

/-- Links, directories and entries that are encrypted or compressed in another
way. -/
def isUnsupported (entry : ZipEntry) (attributes : Nat) : Bool :=
  let type := (attributes >>> 16) &&& 0o170000
  entry.flags != 0 || !(entry.method == 0 || entry.method == 8) ||
    (type != 0 && type != 0o100000) || (attributes &&& 0x10) != 0

/-- One turn of the loop over the directory, after the names and the total
size so far. -/
def centralEntry (bytes : Bytes) (stop : Nat) (names : List JsString)
    (cursor total : Nat) : Checked ZipEntry :=
  if stop < cursor + 46 || u32 bytes cursor != 0x02014B50 then
    throws "Portable ZIP directory is incomplete or inconsistent"
  else if u16 bytes (cursor + 28) == 0 || 240 < u16 bytes (cursor + 28) ||
      stop < nextHeader bytes cursor || u32 bytes (cursor + 30) != 0 ||
      u16 bytes (cursor + 34) != 0 then
    throws "Portable ZIP entry metadata is invalid"
  else do
    let name ← text (centralName bytes cursor)
    let path ← portablePath (some (.string name))
    let entry := centralFields bytes cursor path
    if names.contains (lowerCase path) then
      throws "Portable ZIP contains duplicate normalized paths"
    else if isUnsupported entry (u32 bytes (cursor + 38)) then
      throws "Portable ZIP contains encryption, links or unsupported entries"
    else if expandedBytes < total + entry.expanded ||
        portableFileLimits .asset < entry.expanded ||
        (path == js "manifest.json" && manifestBytes < entry.expanded) then
      throws "Portable ZIP exceeds its expanded file or 100 MiB package limit"
    else if entry.method == 0 && entry.compressed != entry.expanded then
      throws "Portable ZIP entry metadata is invalid"
    else .ok entry

/-- The loop over the directory: the entries, and where the last one ends. -/
def centralEntries (bytes : Bytes) (stop : Nat) :
    Nat → List JsString → Nat → Nat → Checked (List ZipEntry × Nat)
  | 0, _, cursor, _ => .ok ([], cursor)
  | count + 1, names, cursor, total => do
      let entry ← centralEntry bytes stop names cursor total
      let rest ← centralEntries bytes stop count
        (lowerCase entry.path :: names) (nextHeader bytes cursor)
        (total + entry.expanded)
      return (entry :: rest.1, rest.2)

/-! ## The local entries -/

/-- `entry.start`, which the loop over the local entries sets. -/
def withStart (bytes : Bytes) (entry : ZipEntry) : ZipEntry :=
  { entry with
    start := entry.offset + 30 + u16 bytes (entry.offset + 26) +
      u16 bytes (entry.offset + 28) }

def localName (bytes : Bytes) (offset : Nat) : Bytes :=
  subarray bytes (offset + 30) (offset + 30 + u16 bytes (offset + 26))

/-- One turn of the loop over the local entries: where the entry ends. -/
def localEntry (bytes : Bytes) (directory expected : Nat) (entry : ZipEntry) :
    Checked Nat :=
  let offset := entry.offset
  if offset != expected || directory < offset + 30 ||
      u32 bytes offset != 0x04034B50 then
    throws "Portable ZIP local entries overlap or differ from the directory"
  else if u16 bytes (offset + 28) != 0 || directory < entry.start then
    throws "Portable ZIP local entries overlap or differ from the directory"
  else do
    let name ← text (localName bytes offset)
    if name != entry.path || u16 bytes (offset + 6) != entry.flags ||
        u16 bytes (offset + 8) != entry.method then
      throws "Portable ZIP local entries overlap or differ from the directory"
    else if u32 bytes (offset + 14) != entry.crc ||
        u32 bytes (offset + 18) != entry.compressed ||
        u32 bytes (offset + 22) != entry.expanded then
      throws "Portable ZIP local metadata differs from the directory"
    else if directory < entry.start + entry.compressed then
      throws "Portable ZIP compressed content is incomplete"
    else .ok (entry.start + entry.compressed)

/-- The loop over the local entries: where the last one ends. -/
def localEntries (bytes : Bytes) (directory : Nat) :
    List ZipEntry → Nat → Checked Nat
  | [], expected => .ok expected
  | entry :: entries, expected => do
      let next ← localEntry bytes directory expected entry
      localEntries bytes directory entries next

/-- `[...entries].sort((left, right) => left.offset - right.offset)` -/
def sortByOffset (entries : List ZipEntry) : List ZipEntry :=
  entries.mergeSort fun left right => left.offset ≤ right.offset

def archiveEntries (bytes : Bytes) : Checked (List ZipEntry) := do
  let record ← endRecord bytes
  let central ← centralEntries bytes record.stop record.count []
    record.directory 0
  if central.2 != record.stop then
    throws "Portable ZIP directory is incomplete or inconsistent"
  else do
    let entries := central.1.map (withStart bytes)
    let last ← localEntries bytes record.directory (sortByOffset entries) 0
    if last != record.directory then
      throws "Portable ZIP contains undeclared local content"
    else .ok entries

/-! ## The package -/

/-- A file that a manifest declares, as far as the reader looks. -/
structure DeclaredFile where
  path : JsString
  bytes : Nat
  deriving DecidableEq

/-- What the reader is given: `inflateRaw` (the content and the bytes it has
read), `crc32` and SHA-256, and of the manifest its parser after `JSON.parse`,
`canonicalPortableJson`, its files and `validatePortableFiles`. -/
structure Format (Manifest : Type) where
  inflateRaw : Bytes → Nat → Option (Bytes × Nat)
  crc32 : Bytes → Nat
  sha256 : Bytes → JsString
  parseManifest : JsString → Checked Manifest
  canonicalJson : Manifest → Checked JsString
  files : Manifest → List DeclaredFile
  validateFiles : Manifest → List (JsString × Bytes) → Checked Unit

section

variable {Manifest : Type} (format : Format Manifest)

def inflate (compressed : Bytes) (expanded : Nat) : Checked Bytes :=
  match format.inflateRaw compressed (max 1 expanded) with
  | some (content, read) =>
      if read = compressed.length then .ok content
      else throws "Portable ZIP compressed content is invalid or exceeds its declared size"
  | none =>
      throws "Portable ZIP compressed content is invalid or exceeds its declared size"

def expand (bytes : Bytes) (entry : ZipEntry) : Checked Bytes := do
  let compressed := subarray bytes entry.start (entry.start + entry.compressed)
  let content ← if entry.method == 0 then .ok compressed
    else inflate format compressed entry.expanded
  if content.length != entry.expanded || format.crc32 content != entry.crc then
    throws "Portable ZIP entry size or checksum does not match"
  else .ok content

/-- Whether the manifest declares an entry with its size. -/
def isDeclared (files : List DeclaredFile) (entry : ZipEntry) : Bool :=
  match files.find? (fun file => file.path = entry.path) with
  | some file => file.bytes == entry.expanded
  | none => false

structure ReadPackage (Manifest : Type) where
  manifest : Manifest
  files : List (JsString × Bytes)
  transferSha256 : JsString

def isManifestEntry (entry : ZipEntry) : Bool :=
  entry.path == js "manifest.json"

/-- The manifest of an archive, from the content of its entry. -/
def readManifest (content : Bytes) : Checked Manifest := do
  let manifestText ← text content
  let manifest ← format.parseManifest manifestText
  let canonical ← format.canonicalJson manifest
  if canonical != manifestText then
    throws "Portable ZIP manifest is not canonical"
  else .ok manifest

def readPortableArchive (bytes : Bytes) :
    Checked (ReadPackage Manifest) :=
  if transferBytes < bytes.length then
    throws "Portable archive exceeds the 25 MiB transfer limit"
  else do
    let entries ← archiveEntries bytes
    match entries.find? isManifestEntry with
    | none => throws "Portable ZIP manifest is missing"
    | some manifestEntry => do
        let content ← expand format bytes manifestEntry
        let manifest ← readManifest format content
        let others := entries.filter fun entry => !isManifestEntry entry
        if entries.length != (format.files manifest).length + 1 then
          throws "Portable file inventory differs from the manifest"
        else if !others.all (isDeclared (format.files manifest)) then
          throws "Portable ZIP inventory differs from the declared manifest"
        else do
          let files ← others.mapM fun entry => do
            let content ← expand format bytes entry
            return (entry.path, content)
          format.validateFiles manifest files
          return {
            manifest := manifest
            files := files
            transferSha256 := format.sha256 bytes }

end

end OpenApe.Ports.PortableArchive
