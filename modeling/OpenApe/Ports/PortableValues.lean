import OpenApe.Ports.CentralValues
import OpenApe.Verified.Utf8

/-!
# Values of portable packages (`sharing.ts`)

The checks that every part of a portable package shares: texts, keys, lists
and the paths of files.  What fails throws an `Error` whose text starts with
`Portable package`.
-/

namespace OpenApe.Ports.PortableValues

open Verified.JsText Verified.Unicode Verified.Utf8
open CentralValues

/-! ## Limits -/

def transferBytes : Nat := 25 * 1024 * 1024
def expandedBytes : Nat := 100 * 1024 * 1024
def manifestBytes : Nat := 1024 * 1024
def filesLimit : Nat := 500

inductive PortableFileKind where
  | script
  | packageManifest
  | packageLock
  | asset
  | composition
  | dataSchema
  deriving DecidableEq

def portableFileLimits : PortableFileKind → Nat
  | .script => 800000
  | .packageManifest => 16384
  | .packageLock => 1024 * 1024
  | .asset => 32 * 1024 * 1024
  | .composition => 1024 * 1024
  | .dataSchema => 16384

/-! ## Texts -/

/-- What the code of packages throws: an `Error` with this text. -/
abbrev Checked (α : Type) := Except JsString α

/-- `fail(message)` -/
def fail {α : Type} (message : String) : Checked α :=
  .error (js "Portable package: " ++ js message)

/-- `text(value, limit, empty)` -/
def text (value : Unknown) (limit : Nat) (empty : Bool) : Checked JsString :=
  match text? value with
  | some value =>
      if (!empty && (trim value).isEmpty) || limit < value.length ||
          value.contains 0 || !wellPaired value then fail "invalid text"
      else .ok value
  | none => fail "invalid text"

/-! ## Paths -/

/-- `/[\w.-]/` -/
def isPathUnit (u : CodeUnit) : Bool :=
  (48 ≤ u && u ≤ 57) || (65 ≤ u && u ≤ 90) || (97 ≤ u && u ≤ 122) ||
    u == unit '_' || u == unit '.' || u == unit '-'

/-- `text.toLowerCase()`, for ASCII text. -/
def lowerCase (text : JsString) : JsString := text.map asciiLower

/-- `/^(?:con|prn|aux|nul|com\d|lpt\d)(?:\.|$)/i` -/
def isDeviceName (part : JsString) : Bool :=
  let stem := lowerCase (part.takeWhile (· != unit '.'))
  [js "con", js "prn", js "aux", js "nul"].contains stem ||
    (stem.length == 4 &&
      [js "com", js "lpt"].contains (stem.take 3) &&
      (stem.drop 3).all fun u => 48 ≤ u && u ≤ 57)

def isForbiddenPart (part : JsString) : Bool :=
  part.head? == some (unit '.') || part.head? == some (unit '-') ||
    [js "node_modules", js "__proto__", js "constructor",
      js "prototype"].contains (lowerCase part) ||
    part.getLast? == some (unit '.') || part.getLast? == some (unit ' ') ||
    isDeviceName part

def portablePath (value : Unknown) : Checked JsString := do
  let path ← text value 240 false
  let parts := path.splitOn (unit '/')
  if !parts.all (fun part => !part.isEmpty && part.all isPathUnit) then
    fail "file path must be relative and normalized"
  else if parts.any isForbiddenPart then fail "unsupported file path"
  else .ok path

end OpenApe.Ports.PortableValues
