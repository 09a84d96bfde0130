import OpenApe.Verified.Utf8Decode

/-!
# Decoding UTF-8 with replacement, byte by byte

`TextDecoder` outside fatal mode, and `Buffer.toString('utf8')`: bytes that
belong to no code point are read as U+FFFD.  The decoder keeps the code point
that is being read, so bytes may arrive in pieces (`run_append`).
-/

namespace OpenApe.Verified.Utf8Stream

open JsText Unicode Utf8 Utf8Decode

/-! ## The decoder -/

/-- A code point of which `left` bytes are still to come, the next one between
`lower` and `upper`. -/
structure Pending where
  point : Nat
  left : Nat
  lower : Nat
  upper : Nat
  deriving DecidableEq

/-- `U+FFFD` -/
def replacement : Nat := 0xFFFD

/-- A byte that nothing waits for. -/
def start (b : Nat) : Option Pending × List Nat :=
  if b < 0x80 then (none, [b])
  else if 0xC2 ≤ b ∧ b ≤ 0xDF then (some ⟨b - 0xC0, 1, 0x80, 0xBF⟩, [])
  else if 0xE0 ≤ b ∧ b ≤ 0xEF then
    (some ⟨b - 0xE0, 2, if b = 0xE0 then 0xA0 else 0x80,
      if b = 0xED then 0x9F else 0xBF⟩, [])
  else if 0xF0 ≤ b ∧ b ≤ 0xF4 then
    (some ⟨b - 0xF0, 3, if b = 0xF0 then 0x90 else 0x80,
      if b = 0xF4 then 0x8F else 0xBF⟩, [])
  else (none, [replacement])

/-- The code point with one more byte. -/
def Pending.next (p : Pending) (b : Nat) : Pending :=
  ⟨p.point * 0x40 + (b - 0x80), p.left - 1, 0x80, 0xBF⟩

/-- One byte: what is pending after it, and the code points it ends. -/
def push (state : Option Pending) (b : Nat) : Option Pending × List Nat :=
  match state with
  | none => start b
  | some p =>
      if p.lower ≤ b ∧ b ≤ p.upper then
        if p.left = 1 then (none, [(p.next b).point]) else (some (p.next b), [])
      else ((start b).1, replacement :: (start b).2)

def run (state : Option Pending) : List Nat → Option Pending × List Nat
  | [] => (state, [])
  | b :: bytes =>
      ((run (push state b).1 bytes).1,
        (push state b).2 ++ (run (push state b).1 bytes).2)

/-- The end of the bytes. -/
def flush : Option Pending → List Nat
  | none => []
  | some _ => [replacement]

/-- The code points of the bytes. -/
def points (bytes : List UInt8) : List Nat :=
  (run none (bytes.map UInt8.toNat)).2 ++
    flush (run none (bytes.map UInt8.toNat)).1

/-- `buffer.toString('utf8')` -/
def decode (bytes : List UInt8) : JsString := (points bytes).flatMap pointUnits

/-- Bytes in two pieces are read like the whole. -/
theorem run_append (state : Option Pending) (a b : List Nat) :
    run state (a ++ b) = ((run (run state a).1 b).1,
      (run state a).2 ++ (run (run state a).1 b).2) := by
  induction a generalizing state with
  | nil => rfl
  | cons byte a ih =>
      rw [List.cons_append, run, run, ih]
      simp only [List.append_assoc]

/-! ## A decoder that is fed -/

/-- Without the byte order mark. -/
def dropMark : List Nat → List Nat
  | [] => []
  | c :: points => if c = 0xFEFF then points else c :: points

/-- A `TextDecoder`; a mark is dropped before anything else is read. -/
structure Decoder where
  pending : Option Pending
  started : Bool

def Decoder.initial : Decoder := ⟨none, false⟩

/-- `decoder.decode(bytes, { stream: true })`, as code points. -/
def Decoder.feed (d : Decoder) (bytes : List UInt8) : Decoder × List Nat :=
  let read := run d.pending (bytes.map UInt8.toNat)
  (⟨read.1, d.started || !read.2.isEmpty⟩,
    if d.started then read.2 else dropMark read.2)

/-- `new TextDecoder().decode(bytes)` -/
def decodeText (bytes : List UInt8) : JsString :=
  (dropMark (points bytes)).flatMap pointUnits

theorem dropMark_append {a : List Nat} (h : a ≠ []) (b : List Nat) :
    dropMark (a ++ b) = dropMark a ++ b := by
  obtain ⟨c, rest, rfl⟩ := List.exists_cons_of_ne_nil h
  show (if c = 0xFEFF then rest ++ b else c :: (rest ++ b)) =
    (if c = 0xFEFF then rest else c :: rest) ++ b
  split
  · rfl
  · rfl

/-- Feeding two pieces reads what feeding the whole reads. -/
theorem feed_append (d : Decoder) (a b : List UInt8) :
    d.feed (a ++ b) = (((d.feed a).1.feed b).1,
      (d.feed a).2 ++ ((d.feed a).1.feed b).2) := by
  obtain ⟨pending, started⟩ := d
  unfold Decoder.feed
  dsimp only
  rw [List.map_append, run_append]
  generalize run pending (a.map UInt8.toNat) = first
  generalize run first.1 (b.map UInt8.toNat) = second
  obtain ⟨between, out⟩ := first
  cases started with
  | true => rfl
  | false =>
      cases out with
      | nil => rfl
      | cons c rest =>
          have hMark := dropMark_append (List.cons_ne_nil c rest) second.2
          exact congrArg (Prod.mk _) hMark

/-- What is left at the end of the bytes is read last. -/
theorem decodeText_eq (bytes : List UInt8) :
    decodeText bytes =
      (Decoder.initial.feed bytes).2.flatMap pointUnits ++
        (flush (Decoder.initial.feed bytes).1.pending).flatMap pointUnits := by
  unfold decodeText points Decoder.feed Decoder.initial
  dsimp only
  generalize run none (bytes.map UInt8.toNat) = read
  obtain ⟨pending, out⟩ := read
  rw [if_neg Bool.false_ne_true, ← List.flatMap_append]
  congr 1
  cases out with
  | nil =>
      cases pending with
      | none => rfl
      | some p => rfl
  | cons c rest => exact dropMark_append (List.cons_ne_nil c rest) _

end OpenApe.Verified.Utf8Stream
