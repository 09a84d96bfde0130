import Mathlib.Data.Bool.AllAny
import OpenApe.Verified.BitGroups
import OpenApe.Verified.Utf8Decode
import OpenApe.Verified.Fallible

/-!
# Recovery codes (`packages/secrets-crypto/src/index.ts`)

A recovery secret of 32 bytes is shown as 52 Crockford base32 characters in
groups of four and typed back.  Both directions regroup bits in a 32-bit
accumulator: `formatRecoveryCode` never masks it, so it overflows, and
`parseRecoveryCode` keeps its low twelve bits.

The loops are followed by what they have written and what is still pending
(`Packing`, `Unpacking`); together that is the bits read so far, whatever
stands above the pending bits.
-/

namespace OpenApe.Ports.RecoveryCodes

open Verified.JsText Verified.Unicode
open Verified.Utf8 (pointUnits codePoints_injective flatMap_pointUnits)
open Verified.Utf8Decode (codePoints_cons)
open Verified.Fallible Verified.BitGroups

/-! ## Upper case -/

/-- `a`–`z` to `A`–`Z`; every other unit is left alone. -/
def asciiUpper (u : CodeUnit) : CodeUnit :=
  if 97 ≤ u.toNat ∧ u.toNat ≤ 122 then u - 32 else u

/-- `String.prototype.toUpperCase` maps each code point by itself, by tables
that the runtime ships.  White space has no case. -/
class UpperMapping where
  upper : Nat → JsString
  upper_ascii (u : CodeUnit) (hAscii : u.toNat < 0x80) :
    upper u.toNat = [asciiUpper u]
  upper_space (u : CodeUnit) (hSpace : isTrimmed u = true) :
    upper u.toNat = [u]

def toUpperCase [UpperMapping] (text : JsString) : JsString :=
  (codePoints text).flatMap UpperMapping.upper

/-! ## The source -/

def crockford : JsString := js "0123456789ABCDEFGHJKMNPQRSTVWXYZ"

def recoveryBytes : Nat := 32

/-- `Math.ceil((RECOVERY_BYTES * 8) / 5)` -/
def recoveryChars : Nat := (recoveryBytes * 8 + 4) / 5

/-- `CROCKFORD[index]` -/
def symbolAt (index : Nat) : CodeUnit := crockford.getD index 0

/-- The variables of the loop of `formatRecoveryCode`. -/
structure Packer where
  bits : Nat
  acc : BitVec 32
  out : JsString

/-- `while (bits >= 5) …` -/
def writeSymbols (bits : Nat) (acc : BitVec 32) (out : JsString) : Packer :=
  if 5 ≤ bits then
    writeSymbols (bits - 5) acc
      (out ++ [symbolAt (acc.sshiftRight (bits - 5) &&& 31).toNat])
  else ⟨bits, acc, out⟩
termination_by bits

/-- `acc = (acc << 8) | byte; bits += 8; while …` -/
def packByte (p : Packer) (byte : UInt8) : Packer :=
  writeSymbols (p.bits + 8) (p.acc <<< 8 ||| BitVec.ofNat 32 byte.toNat) p.out

/-- The characters of a code, before they are grouped. -/
def codeSymbols (secret : List UInt8) : JsString :=
  let p := secret.foldl packByte ⟨0, 0, []⟩
  if 0 < p.bits then
    p.out ++ [symbolAt (p.acc <<< (5 - p.bits) &&& 31).toNat]
  else p.out

/-- `out.match(/.{1,4}/g)`; no symbol is a line terminator. -/
def groups : JsString → List JsString
  | [] => []
  | a :: b :: c :: d :: rest => [a, b, c, d] :: groups rest
  | rest => [rest]

/-- Returns nothing where `match` finds no group and the call throws. -/
def formatRecoveryCode (secret : List UInt8) : Option JsString :=
  match groups (codeSymbols secret) with
  | [] => none
  | found => some (List.intercalate (js " ") found)

/-- `/[\s-]/` -/
def isSeparator (u : CodeUnit) : Bool := isTrimmed u || u == unit '-'

/-- The look-alikes `O`, `I` and `L`. -/
def lookAlike (u : CodeUnit) : CodeUnit :=
  if u = unit 'O' then unit '0'
  else if u = unit 'I' then unit '1'
  else if u = unit 'L' then unit '1' else u

/-- `code.toUpperCase().replace(/[\s-]/g, '').replaceAll('O', '0')…` -/
def normalise [UpperMapping] (code : JsString) : JsString :=
  ((toUpperCase code).filter (fun u => !isSeparator u)).map lookAlike

/-- The variables of the loop of `parseRecoveryCode`. -/
structure Unpacker where
  bits : Nat
  acc : BitVec 32
  position : Nat
  out : List UInt8

inductive RecoveryCodeError where
  | length
  | character (c : JsString)
  | leftover
  deriving DecidableEq

/-- `error.message` -/
def RecoveryCodeError.message : RecoveryCodeError → JsString
  | .length => js "Recovery code must have 52 characters"
  | .character c => js "Recovery code contains an invalid character: " ++ c
  | .leftover => js "Recovery code is not valid"

/-- `acc = ((acc << 5) | v) & 0xFFF; bits += 5; if (bits >= 8) …` -/
def pushSymbol (s : Unpacker) (v : Nat) : Unpacker :=
  let acc := (s.acc <<< 5 ||| BitVec.ofNat 32 v) &&& 0xFFF
  let bits := s.bits + 5
  if 8 ≤ bits then
    { bits := bits - 8
      acc := acc
      position := s.position + 1
      out := s.out.set s.position
        (UInt8.ofNat (acc.sshiftRight (bits - 8) &&& 0xFF).toNat) }
  else { s with bits := bits, acc := acc }

/-- The body of `for (const c of chars)`; `CROCKFORD.indexOf(c)`. -/
def unpackSymbol (s : Unpacker) (c : Nat) :
    Except RecoveryCodeError Unpacker :=
  match crockford.findIdx? (fun u => u.toNat == c) with
  | none => .error (.character (pointUnits c))
  | some v => .ok (pushSymbol s v)

def parseRecoveryCode [UpperMapping] (code : JsString) :
    Except RecoveryCodeError (List UInt8) := do
  let chars := normalise code
  if chars.length ≠ recoveryChars then throw .length
  let s ← (codePoints chars).foldlM unpackSymbol
    ⟨0, 0, 0, List.replicate recoveryBytes 0⟩
  if s.acc &&& (1#32 <<< s.bits - 1) ≠ 0 then throw .leftover
  return s.out

/-! ## How a code may be typed -/

/-- One character of the code, as it may be typed: in either letter case,
or as a look-alike in either letter case. -/
def Typed (u v : CodeUnit) : Prop :=
  asciiUpper v = u ∨ (u = unit '0' ∧ asciiUpper v = unit 'O') ∨
    (u = unit '1' ∧ (asciiUpper v = unit 'I' ∨ asciiUpper v = unit 'L'))

/-- The code in other letter case, with look-alikes, and with separators
inserted or dropped. -/
inductive Respelled : JsString → JsString → Prop where
  | done : Respelled [] []
  | typed {u v : CodeUnit} {s t : JsString} (h : Typed u v)
      (rest : Respelled s t) : Respelled (u :: s) (v :: t)
  | inserted {v : CodeUnit} {s t : JsString} (h : isSeparator v = true)
      (rest : Respelled s t) : Respelled s (v :: t)
  | dropped {u : CodeUnit} {s t : JsString} (h : isSeparator u = true)
      (rest : Respelled s t) : Respelled (u :: s) t

/-! ## Symbols -/

theorem not_high_of_ascii {u : CodeUnit} (h : u.toNat < 0x80) :
    isHighSurrogate u = false := by
  rw [isHighSurrogate, Bool.and_eq_false_iff]
  left
  rw [decide_eq_false_iff_not, UInt16.le_iff_toNat_le]
  show ¬0xD800 ≤ u.toNat
  omega

theorem crockford_units : ∀ u ∈ crockford, u.toNat < 0x80 ∧
    isSeparator u = false ∧ lookAlike u = u ∧ asciiUpper u = u := by
  rw [crockford, js_ofList]
  exact List.all_iff_forall_prop.mp (by decide)

theorem length_crockford : crockford.length = 32 := by
  rw [crockford, js_ofList]
  rfl

theorem symbolAt_mem {d : Nat} (h : d < 32) : symbolAt d ∈ crockford := by
  have hIndex : d < crockford.length := by rwa [length_crockford]
  rw [symbolAt, List.getD_eq_getElem _ _ hIndex]
  exact List.getElem_mem hIndex

/-- Looking a character up finds the digit that it stands for. -/
theorem findIdx?_symbolAt {d : Nat} (h : d < 32) :
    crockford.findIdx? (fun u => u.toNat == (symbolAt d).toNat) = some d := by
  have hAll : ∀ d : Fin 32, crockford.findIdx?
      (fun u => u.toNat == (symbolAt d).toNat) = some d.val := by
    simp only [crockford, symbolAt]
    decide
  exact hAll ⟨d, h⟩

theorem symbolAt_of_findIdx? {c d : Nat}
    (h : crockford.findIdx? (fun u => u.toNat == c) = some d) :
    d < 32 ∧ (symbolAt d).toNat = c := by
  obtain ⟨hLt, hSame, -⟩ := List.findIdx?_eq_some_iff_getElem.mp h
  rw [symbolAt, List.getD_eq_getElem _ _ hLt]
  exact ⟨length_crockford ▸ hLt, beq_iff_eq.mp hSame⟩

/-! ## Writing a code -/

/-- What is read, what is written and what is pending while packing. -/
structure Packing (read : List Nat) (p : Packer) (digits : List Nat) :
    Prop where
  pending_lt : p.bits < 5
  out_eq : p.out = digits.map symbolAt
  digits_lt : ∀ d ∈ digits, d < 32
  bits_eq : digitBits 8 read = digitBits 5 digits ++ pending p.bits p.acc

theorem packing_writeSymbols {read : List Nat} {n : Nat} {acc : BitVec 32}
    {digits : List Nat} (hFits : n ≤ 32) (hDigits : ∀ d ∈ digits, d < 32)
    (hBits : digitBits 8 read = digitBits 5 digits ++ pending n acc) :
    ∃ digits', Packing read (writeSymbols n acc (digits.map symbolAt))
      digits' := by
  induction n using Nat.strongRecOn generalizing digits with
  | ind n ih =>
      rw [writeSymbols]
      by_cases hFull : 5 ≤ n
      · let d := taken 5 (n - 5) acc
        have hDigit : d < 32 := taken_lt (n - 5) acc (by decide)
        have hCut : pending n acc = bits 5 d ++ pending (n - 5) acc := by
          have hTake := @bits_take 5 (n - 5) acc (by omega)
          rwa [Nat.sub_add_cancel hFull] at hTake
        have hNext : ∀ e ∈ digits ++ [d], e < 32 := by
          intro e he
          cases List.mem_append.mp he with
          | inl hOld => exact hDigits e hOld
          | inr hNew => exact List.mem_singleton.mp hNew ▸ hDigit
        have hRest : digitBits 8 read =
            digitBits 5 (digits ++ [d]) ++ pending (n - 5) acc := by
          rw [hBits, hCut, digitBits_append, List.append_assoc, digitBits_cons,
            digitBits_nil, List.append_nil]
        have hMore := ih (n - 5) (by omega) (by omega) hNext hRest
        rw [List.map_append, List.map_singleton] at hMore
        rw [if_pos hFull]
        exact hMore
      · rw [if_neg hFull]
        exact ⟨digits, Nat.lt_of_not_le hFull, rfl, hDigits, hBits⟩

theorem packing_packByte {read : List Nat} {p : Packer} {digits : List Nat}
    (h : Packing read p digits) (byte : UInt8) :
    ∃ digits', Packing (read ++ [byte.toNat]) (packByte p byte) digits' := by
  have hPending := h.pending_lt
  rw [packByte, h.out_eq]
  apply packing_writeSymbols (by omega) h.digits_lt
  rw [digitBits_append, h.bits_eq, digitBits_cons, digitBits_nil,
    List.append_nil, List.append_assoc,
    bits_push (by omega) (UInt8.toNat_lt byte)]

theorem packing_foldl (secret : List UInt8) {read : List Nat} {p : Packer}
    {digits : List Nat} (h : Packing read p digits) :
    ∃ digits', Packing (read ++ secret.map UInt8.toNat)
      (secret.foldl packByte p) digits' := by
  induction secret generalizing read p digits with
  | nil =>
      rw [List.map_nil, List.append_nil]
      exact ⟨digits, h⟩
  | cons byte secret ih =>
      obtain ⟨digits', hNext⟩ := packing_packByte h byte
      have hRest := ih hNext
      rw [List.append_assoc, List.singleton_append] at hRest
      exact hRest

/-- The digits of a code are the bits of the secret, filled up with zeros. -/
theorem codeSymbols_spec (secret : List UInt8) :
    ∃ digits, codeSymbols secret = digits.map symbolAt ∧
      (∀ d ∈ digits, d < 32) ∧ ∃ k, k < 5 ∧
        digitBits 5 digits =
          digitBits 8 (secret.map UInt8.toNat) ++ bits k 0 := by
  have hStart : Packing [] ⟨0, 0, []⟩ [] :=
    ⟨by decide, rfl, fun d hd => absurd hd List.not_mem_nil, rfl⟩
  obtain ⟨digits, hEnd⟩ := packing_foldl secret hStart
  rw [List.nil_append] at hEnd
  have hPending := hEnd.pending_lt
  rw [codeSymbols]
  by_cases hLeft : 0 < (secret.foldl packByte ⟨0, 0, []⟩).bits
  · simp only [hLeft, if_true]
    generalize secret.foldl packByte ⟨0, 0, []⟩ = p at *
    let k := 5 - p.bits
    let last := (p.acc <<< k &&& BitVec.ofNat 32 (2 ^ 5 - 1)).toNat
    have hWidth : p.bits + k = 5 := by omega
    have hLast : last < 32 := by
      have hTaken := @taken_lt 5 0 (p.acc <<< k) (by decide)
      rwa [taken, BitVec.sshiftRight_zero] at hTaken
    have hShifted : bits 5 last = pending p.bits p.acc ++ bits k 0 := by
      have hPush := @bits_push p.bits k 0 p.acc (by omega)
        (Nat.two_pow_pos k)
      rw [hWidth, show BitVec.ofNat 32 0 = 0#32 from rfl, BitVec.or_zero]
        at hPush
      rw [← hPush]
      exact pending_mask (le_refl 5) (by decide)
    refine ⟨digits ++ [last], ?_, ?_, k, by omega, ?_⟩
    · rw [List.map_append, hEnd.out_eq]
      rfl
    · intro e he
      cases List.mem_append.mp he with
      | inl hOld => exact hEnd.digits_lt e hOld
      | inr hNew => exact List.mem_singleton.mp hNew ▸ hLast
    · rw [digitBits_append, digitBits_cons, digitBits_nil, List.append_nil,
        hShifted, hEnd.bits_eq, List.append_assoc]
  · simp only [hLeft, if_false]
    generalize secret.foldl packByte ⟨0, 0, []⟩ = p at *
    have hNone : p.bits = 0 := by omega
    have hBits := hEnd.bits_eq
    rw [hNone, pending, bits_zero] at hBits
    rw [List.append_nil] at hBits
    refine ⟨digits, hEnd.out_eq, hEnd.digits_lt, 0, by decide, ?_⟩
    rw [hBits, bits_zero, List.append_nil]

/-- A recovery secret has 52 digits, and four zeros at the end. -/
theorem codeSymbols_recovery {secret : List UInt8}
    (h : secret.length = recoveryBytes) :
    ∃ digits, codeSymbols secret = digits.map symbolAt ∧
      (∀ d ∈ digits, d < 32) ∧ digits.length = recoveryChars ∧
        digitBits 5 digits =
          digitBits 8 (secret.map UInt8.toNat) ++ bits 4 0 := by
  obtain ⟨digits, hSymbols, hDigits, k, hk, hBits⟩ := codeSymbols_spec secret
  have hLength := congrArg List.length hBits
  rw [length_digitBits, List.length_append, length_digitBits, length_bits,
    List.length_map, h, recoveryBytes] at hLength
  have hFour : k = 4 := by omega
  refine ⟨digits, hSymbols, hDigits, ?_, hFour ▸ hBits⟩
  rw [recoveryChars, recoveryBytes]
  omega

/-! ## Reading a code -/

/-- What is read, what is written and what is pending while unpacking. -/
structure Unpacking (digits : List Nat) (s : Unpacker) (written : List UInt8) :
    Prop where
  pending_lt : s.bits < 8
  position_eq : s.position = written.length
  out_eq : s.out = written ++ List.replicate (recoveryBytes - written.length) 0
  bits_eq : digitBits 5 digits =
    digitBits 8 (written.map UInt8.toNat) ++ pending s.bits s.acc

theorem Unpacking.length_eq {digits : List Nat} {s : Unpacker}
    {written : List UInt8} (h : Unpacking digits s written) :
    5 * digits.length = 8 * written.length + s.bits := by
  have hLength := congrArg List.length h.bits_eq
  rwa [length_digitBits, List.length_append, length_digitBits, length_pending,
    List.length_map] at hLength

theorem unpacking_pushSymbol {digits : List Nat} {s : Unpacker}
    {written : List UInt8} {d : Nat} (h : Unpacking digits s written)
    (hDigit : d < 32) (hRoom : digits.length < recoveryChars) :
    ∃ written', Unpacking (digits ++ [d]) (pushSymbol s d) written' := by
  have hPending := h.pending_lt
  have hLength := h.length_eq
  have hRead : digitBits 5 (digits ++ [d]) =
      digitBits 8 (written.map UInt8.toNat) ++ pending (s.bits + 5)
        ((s.acc <<< 5 ||| BitVec.ofNat 32 d) &&& 0xFFF) := by
    have hMask := @pending_mask (s.bits + 5) 12
      (s.acc <<< 5 ||| BitVec.ofNat 32 d) (by omega) (by decide)
    rw [digitBits_append, h.bits_eq, digitBits_cons, digitBits_nil,
      List.append_nil, List.append_assoc,
      ← bits_push (show s.bits + 5 ≤ 32 by omega) hDigit]
    exact congrArg _ hMask.symm
  rw [pushSymbol]
  generalize (s.acc <<< 5 ||| BitVec.ofNat 32 d) &&& 0xFFF = acc at *
  by_cases hFull : 8 ≤ s.bits + 5
  · simp only [hFull, if_true]
    let byte := taken 8 (s.bits + 5 - 8) acc
    have hByte : byte < 256 := taken_lt (s.bits + 5 - 8) acc (by decide)
    have hSlot : written.length < recoveryBytes := by
      simp only [recoveryChars, recoveryBytes] at hRoom ⊢
      omega
    refine ⟨written ++ [UInt8.ofNat byte], ?_, ?_, ?_, ?_⟩
    · show s.bits + 5 - 8 < 8
      omega
    · rw [List.length_append, h.position_eq, List.length_singleton]
    · show s.out.set s.position (UInt8.ofNat byte) = _
      rw [h.out_eq, h.position_eq, List.set_append_right _ _ (le_refl _),
        Nat.sub_self, List.length_append, List.length_singleton,
        show recoveryBytes - written.length =
          (recoveryBytes - (written.length + 1)) + 1 by omega,
        List.replicate_succ, List.set_cons_zero, List.append_assoc,
        List.singleton_append]
    · have hTake := @bits_take 8 (s.bits + 5 - 8) acc (by omega)
      rw [Nat.sub_add_cancel hFull] at hTake
      rw [hRead, hTake, List.map_append, digitBits_append, List.map_singleton,
        digitBits_cons, digitBits_nil, List.append_nil, List.append_assoc,
        UInt8.toNat_ofNat', Nat.mod_eq_of_lt hByte]
  · simp only [hFull, if_false]
    refine ⟨written, ?_, h.position_eq, h.out_eq, hRead⟩
    show s.bits + 5 < 8
    omega

theorem unpacking_foldl (more : List Nat) {digits : List Nat} {s : Unpacker}
    {written : List UInt8} (h : Unpacking digits s written)
    (hDigits : ∀ d ∈ more, d < 32)
    (hRoom : digits.length + more.length ≤ recoveryChars) :
    ∃ written', Unpacking (digits ++ more) (more.foldl pushSymbol s)
      written' := by
  induction more generalizing digits s written with
  | nil =>
      rw [List.append_nil]
      exact ⟨written, h⟩
  | cons d more ih =>
      rw [List.length_cons] at hRoom
      obtain ⟨written', hNext⟩ := unpacking_pushSymbol h
        (hDigits d List.mem_cons_self) (by omega)
      have hRest := ih hNext (fun e he => hDigits e (List.mem_cons_of_mem d he))
        (by rw [List.length_append, List.length_singleton]; omega)
      rw [List.append_assoc, List.singleton_append] at hRest
      exact hRest

/-- The digits of the characters, read from the start. -/
def unpacked (digits : List Nat) : Unpacker :=
  digits.foldl pushSymbol ⟨0, 0, 0, List.replicate recoveryBytes 0⟩

theorem foldlM_unpackSymbol {digits : List Nat} (hDigits : ∀ d ∈ digits, d < 32)
    (s : Unpacker) :
    (digits.map (fun d => (symbolAt d).toNat)).foldlM unpackSymbol s =
      .ok (digits.foldl pushSymbol s) := by
  induction digits generalizing s with
  | nil => rfl
  | cons d digits ih =>
      have hHead : unpackSymbol s (symbolAt d).toNat = .ok (pushSymbol s d) := by
        rw [unpackSymbol, findIdx?_symbolAt (hDigits d List.mem_cons_self)]
      rw [List.map_cons, List.foldlM_cons, hHead, ok_bind, List.foldl_cons]
      exact ih (fun e he => hDigits e (List.mem_cons_of_mem d he)) _

/-- Characters that are accepted are symbols. -/
theorem digits_of_foldlM {points : List Nat} {s s' : Unpacker}
    (h : points.foldlM unpackSymbol s = .ok s') :
    ∃ digits : List Nat, points = digits.map (fun d => (symbolAt d).toNat) ∧
      (∀ d ∈ digits, d < 32) ∧ s' = digits.foldl pushSymbol s := by
  induction points generalizing s with
  | nil => exact ⟨[], rfl, fun d hd => absurd hd List.not_mem_nil,
      (Except.ok.inj h).symm⟩
  | cons c points ih =>
      rw [List.foldlM_cons] at h
      obtain ⟨next, hHead, hTail⟩ := bind_eq_ok.mp h
      obtain ⟨digits, hPoints, hDigits, hEnd⟩ := ih hTail
      rw [unpackSymbol] at hHead
      cases hFound : crockford.findIdx? (fun u => u.toNat == c) with
      | none =>
          rw [hFound] at hHead
          cases hHead
      | some d =>
          rw [hFound] at hHead
          obtain ⟨hLt, hSymbol⟩ := symbolAt_of_findIdx? hFound
          have hNext := Except.ok.inj hHead
          refine ⟨d :: digits, ?_, List.forall_mem_cons.mpr ⟨hLt, hDigits⟩, ?_⟩
          · rw [List.map_cons, hSymbol, hPoints]
          · rw [hEnd, List.foldl_cons, hNext]

/-- A text of symbols has the code points of its digits. -/
theorem codePoints_symbols {digits : List Nat} (hDigits : ∀ d ∈ digits, d < 32) :
    codePoints (digits.map symbolAt) =
      digits.map (fun d => (symbolAt d).toNat) := by
  induction digits with
  | nil => rfl
  | cons d digits ih =>
      have hSymbol := crockford_units _
        (symbolAt_mem (hDigits d List.mem_cons_self))
      rw [List.map_cons, codePoints_cons (not_high_of_ascii hSymbol.1),
        List.map_cons, ih fun e he => hDigits e (List.mem_cons_of_mem d he)]

/-! ## Normalised codes -/

/-- A character typed for another one is read as that one. -/
theorem typed_spec {u v : CodeUnit} (hUnit : u ∈ crockford ∨ u = unit ' ')
    (h : Typed u v) :
    v.toNat < 0x80 ∧ isSeparator (asciiUpper v) = isSeparator u ∧
      (isSeparator u = false → lookAlike (asciiUpper v) = u) := by
  have hAscii : (asciiUpper v).toNat < 0x80 → v.toNat < 0x80 := by
    intro hUpper
    rw [asciiUpper] at hUpper
    split at hUpper
    · omega
    · exact hUpper
  have hSame : u.toNat < 0x80 ∧ (isSeparator u = false → lookAlike u = u) := by
    cases hUnit with
    | inl hSymbol =>
        have hUnits := crockford_units u hSymbol
        exact ⟨hUnits.1, fun _ => hUnits.2.2.1⟩
    | inr hSpace =>
        rw [hSpace]
        exact ⟨by decide, fun _ => by decide⟩
  rcases h with hCase | ⟨rfl, hCase⟩ | ⟨rfl, hCase | hCase⟩
  · rw [hCase] at hAscii ⊢
    exact ⟨hAscii hSame.1, rfl, hSame.2⟩
  all_goals
    rw [hCase] at hAscii ⊢
    exact ⟨hAscii (by decide), by decide, fun _ => by decide⟩

section Normalising

variable [UpperMapping]

theorem toUpperCase_cons {u : CodeUnit} (h : isHighSurrogate u = false)
    (text : JsString) :
    toUpperCase (u :: text) = UpperMapping.upper u.toNat ++ toUpperCase text := by
  rw [toUpperCase, codePoints_cons h, List.flatMap_cons, toUpperCase]

/-- What a character that has one upper-case unit leaves. -/
theorem normalise_cons {u w : CodeUnit} (hHigh : isHighSurrogate u = false)
    (hUpper : UpperMapping.upper u.toNat = [w]) (text : JsString) :
    normalise (u :: text) =
      (if isSeparator w then [] else [lookAlike w]) ++ normalise text := by
  rw [normalise, toUpperCase_cons hHigh, hUpper, List.singleton_append,
    List.filter_cons, normalise]
  cases isSeparator w <;> rfl

theorem normalise_ascii {u : CodeUnit} (h : u.toNat < 0x80) (text : JsString) :
    normalise (u :: text) =
      (if isSeparator (asciiUpper u) then [] else [lookAlike (asciiUpper u)]) ++
        normalise text :=
  normalise_cons (not_high_of_ascii h) (UpperMapping.upper_ascii u h) text

theorem normalise_separator {u : CodeUnit} (h : isSeparator u = true)
    (text : JsString) : normalise (u :: text) = normalise text := by
  have hUpper : isHighSurrogate u = false ∧ UpperMapping.upper u.toNat = [u] := by
    cases Bool.or_eq_true_iff.mp h with
    | inl hSpace => exact ⟨(surrogate_of_isTrimmed hSpace).1,
        UpperMapping.upper_space u hSpace⟩
    | inr hHyphen =>
        rw [beq_iff_eq.mp hHyphen]
        exact ⟨by decide, UpperMapping.upper_ascii _ (by decide)⟩
  rw [normalise_cons hUpper.1 hUpper.2, if_pos h, List.nil_append]

theorem normalise_respelled {s t : JsString} (h : Respelled s t)
    (hUnits : ∀ u ∈ s, u ∈ crockford ∨ u = unit ' ') :
    normalise t = s.filter (fun u => !isSeparator u) := by
  induction h with
  | done => rfl
  | @typed u v s t hTyped _ ih =>
      obtain ⟨hAscii, hSeparator, hRead⟩ :=
        typed_spec (hUnits u List.mem_cons_self) hTyped
      rw [normalise_ascii hAscii, hSeparator, List.filter_cons,
        ih fun w hw => hUnits w (List.mem_cons_of_mem u hw)]
      cases hCase : isSeparator u with
      | true => rfl
      | false =>
          rw [hRead hCase]
          rfl
  | inserted hSeparator _ ih =>
      rw [normalise_separator hSeparator, ih hUnits]
  | @dropped u s t hSeparator _ ih =>
      rw [List.filter_cons, hSeparator,
        ih fun w hw => hUnits w (List.mem_cons_of_mem u hw)]
      rfl

end Normalising

theorem respelled_self (code : JsString)
    (hUnits : ∀ u ∈ code, u ∈ crockford ∨ u = unit ' ') :
    Respelled code code := by
  induction code with
  | nil => exact .done
  | cons u code ih =>
      refine .typed (Or.inl ?_)
        (ih fun w hw => hUnits w (List.mem_cons_of_mem u hw))
      cases hUnits u List.mem_cons_self with
      | inl hSymbol => exact (crockford_units u hSymbol).2.2.2
      | inr hSpace =>
          rw [hSpace]
          decide

/-! ## Groups -/

theorem flatten_groups (text : JsString) : (groups text).flatten = text := by
  fun_induction groups text with
  | case1 => rfl
  | case2 a b c d rest ih => rw [List.flatten_cons, ih]; rfl
  | case3 rest => rw [List.flatten_singleton]

/-- Separators between the groups are filtered out again. -/
theorem filter_intercalate {p : CodeUnit → Bool} {sep : JsString}
    (hSep : sep.filter p = []) (parts : List JsString) :
    (List.intercalate sep parts).filter p = parts.flatten.filter p := by
  induction parts with
  | nil => rfl
  | cons part parts ih =>
      cases parts with
      | nil => simp [List.intercalate]
      | cons next parts =>
          rw [List.intercalate_cons_cons, List.filter_append,
            List.filter_append, hSep, List.append_nil, ih,
            List.flatten_cons (l := part), List.filter_append]

theorem mem_intercalate {u : CodeUnit} {sep : JsString} {parts : List JsString}
    (h : u ∈ List.intercalate sep parts) : u ∈ parts.flatten ∨ u ∈ sep := by
  induction parts with
  | nil => cases h
  | cons part parts ih =>
      cases parts with
      | nil => exact Or.inl (by simpa [List.intercalate] using h)
      | cons next parts =>
          rw [List.intercalate_cons_cons, List.mem_append,
            List.mem_append] at h
          rw [List.flatten_cons, List.mem_append]
          rcases h with (hPart | hSep) | hRest
          · exact Or.inl (Or.inl hPart)
          · exact Or.inr hSep
          · cases ih hRest with
            | inl hFlat => exact Or.inl (Or.inr hFlat)
            | inr hSep => exact Or.inr hSep

/-- The code shows the symbols in groups. -/
theorem formatRecoveryCode_eq {secret : List UInt8} {digits : List Nat}
    (hSymbols : codeSymbols secret = digits.map symbolAt)
    (hDigits : ∀ d ∈ digits, d < 32) (hSome : digits ≠ []) :
    ∃ code, formatRecoveryCode secret = some code ∧
      code.filter (fun u => !isSeparator u) = digits.map symbolAt ∧
      ∀ u ∈ code, u ∈ crockford ∨ u = unit ' ' := by
  have hFlat := flatten_groups (digits.map symbolAt)
  rw [formatRecoveryCode, hSymbols]
  cases hGroups : groups (digits.map symbolAt) with
  | nil =>
      rw [hGroups] at hFlat
      exact absurd (List.map_eq_nil_iff.mp hFlat.symm) hSome
  | cons part parts =>
      rw [hGroups] at hFlat
      refine ⟨_, rfl, ?_, ?_⟩
      · rw [filter_intercalate (by decide), hFlat]
        apply List.filter_eq_self.mpr
        intro u hu
        obtain ⟨d, hd, rfl⟩ := List.mem_map.mp hu
        rw [(crockford_units _ (symbolAt_mem (hDigits d hd))).2.1]
        rfl
      · intro u hu
        cases mem_intercalate hu with
        | inl hPart =>
            rw [hFlat] at hPart
            obtain ⟨d, hd, rfl⟩ := List.mem_map.mp hPart
            exact Or.inl (symbolAt_mem (hDigits d hd))
        | inr hSep => exact Or.inr (List.mem_singleton.mp hSep)

/-! ## Both directions -/

theorem unpacking_unpacked {digits : List Nat} (hDigits : ∀ d ∈ digits, d < 32)
    (hLength : digits.length = recoveryChars) :
    ∃ written, Unpacking digits (unpacked digits) written ∧
      written.length = recoveryBytes ∧ (unpacked digits).bits = 4 ∧
      (unpacked digits).out = written := by
  have hStart : Unpacking [] ⟨0, 0, 0, List.replicate recoveryBytes 0⟩ [] :=
    ⟨by decide, rfl, rfl, rfl⟩
  obtain ⟨written, hEnd⟩ := unpacking_foldl digits hStart hDigits
    (by rw [List.length_nil, hLength]; omega)
  rw [List.nil_append] at hEnd
  have hPending := hEnd.pending_lt
  have hCount := hEnd.length_eq
  rw [hLength, show recoveryChars = 52 from rfl] at hCount
  have hWritten : written.length = 32 := by omega
  refine ⟨written, hEnd, hWritten, ?_, ?_⟩
  · rw [unpacked]
    omega
  · rw [unpacked, hEnd.out_eq, hWritten, recoveryBytes, Nat.sub_self, List.replicate_zero,
      List.append_nil]

/-- The check for leftover bits. -/
theorem leftover_eq_zero_iff {digits : List Nat} {s : Unpacker}
    {written : List UInt8} (h : Unpacking digits s written) (hBits : s.bits = 4) :
    s.acc &&& (1#32 <<< s.bits - 1) = 0 ↔
      digitBits 5 digits = digitBits 8 (written.map UInt8.toNat) ++ bits 4 0 := by
  rw [h.bits_eq, hBits]
  show s.acc &&& BitVec.ofNat 32 (2 ^ 4 - 1) = 0 ↔ _
  have hZero := @pending_eq_zero_iff 4 s.acc (by decide)
  exact hZero.trans (List.append_right_inj _).symm

theorem toNat_injective : Function.Injective UInt8.toNat :=
  fun _ _ h => UInt8.toNat_inj.mp h

theorem bytes_lt (secret : List UInt8) :
    ∀ d ∈ secret.map UInt8.toNat, d < 2 ^ 8 := by
  intro d hd
  obtain ⟨byte, -, rfl⟩ := List.mem_map.mp hd
  exact byte.toNat_lt

section Parsing

variable [UpperMapping]

/-- What the parser makes of 52 symbols. -/
theorem parseRecoveryCode_of_symbols {code : JsString} {digits : List Nat}
    (hCode : normalise code = digits.map symbolAt)
    (hDigits : ∀ d ∈ digits, d < 32) (hLength : digits.length = recoveryChars) :
    parseRecoveryCode code =
      if (unpacked digits).acc &&& (1#32 <<< (unpacked digits).bits - 1) ≠ 0 then
        .error .leftover
      else .ok (unpacked digits).out := by
  have hChars : ¬(digits.map symbolAt).length ≠ recoveryChars :=
    not_not.mpr ((List.length_map ..).trans hLength)
  rw [parseRecoveryCode, hCode]
  simp only [hChars, if_false, codePoints_symbols hDigits,
    foldlM_unpackSymbol hDigits]
  rfl

/-- A code that is accepted has 52 symbols. -/
theorem symbols_of_parse {code : JsString} {secret : List UInt8}
    (h : parseRecoveryCode code = .ok secret) :
    ∃ digits : List Nat, normalise code = digits.map symbolAt ∧
      (∀ d ∈ digits, d < 32) ∧ digits.length = recoveryChars := by
  rw [parseRecoveryCode] at h
  split at h
  · cases h
  · rename_i hLength
    obtain ⟨s, hFold, -⟩ := bind_eq_ok.mp h
    obtain ⟨digits, hPoints, hDigits, -⟩ := digits_of_foldlM hFold
    rw [← codePoints_symbols hDigits] at hPoints
    have hCode := codePoints_injective hPoints
    refine ⟨digits, hCode, hDigits, ?_⟩
    rw [hCode, List.length_map, not_not] at hLength
    exact hLength

/-- **Recovery codes decode to the secret that they encode**, however they
are typed, and a code that is accepted has the characters of the code of the
secret that it gives. -/
theorem recoveryCode_decodes :
    (∀ secret : List UInt8, secret.length = recoveryBytes →
      ∃ code, formatRecoveryCode secret = some code ∧
        parseRecoveryCode code = .ok secret ∧
        ∀ typed, Respelled code typed →
          parseRecoveryCode typed = .ok secret) ∧
    ∀ (typed : JsString) (secret : List UInt8),
      parseRecoveryCode typed = .ok secret →
        secret.length = recoveryBytes ∧
        ∃ code, formatRecoveryCode secret = some code ∧
          normalise typed = code.filter (fun u => !isSeparator u) := by
  refine ⟨fun secret hSecret => ?_, fun typed secret hParse => ?_⟩
  · obtain ⟨digits, hSymbols, hDigits, hCount, hBits⟩ :=
      codeSymbols_recovery hSecret
    have hSome : digits ≠ [] := fun hNil => by
      rw [hNil] at hCount
      exact absurd hCount (by decide)
    obtain ⟨code, hCode, hFilter, hUnits⟩ :=
      formatRecoveryCode_eq hSymbols hDigits hSome
    obtain ⟨written, hEnd, hWritten, hFour, hOut⟩ :=
      unpacking_unpacked hDigits hCount
    -- the bits read are those of the secret, so the bytes written are too
    have hBoth : digitBits 8 (secret.map UInt8.toNat) ++ bits 4 0 =
        digitBits 8 (written.map UInt8.toNat) ++
          pending (unpacked digits).bits (unpacked digits).acc := by
      rw [← hBits, hEnd.bits_eq]
    have hSame : written = secret := by
      have hBytes := (List.append_inj hBoth (by
        rw [length_digitBits, length_digitBits, List.length_map,
          List.length_map, hSecret, hWritten])).1
      exact (List.map_injective_iff.mpr toNat_injective (digits_injective
        (by decide) (bytes_lt secret) (bytes_lt written) hBytes)).symm
    have hLeft : (unpacked digits).acc &&&
        (1#32 <<< (unpacked digits).bits - 1) = 0 :=
      (leftover_eq_zero_iff hEnd hFour).mpr (hSame ▸ hBits)
    have hParses : ∀ typed, normalise typed = digits.map symbolAt →
        parseRecoveryCode typed = .ok secret := by
      intro typed hTyped
      rw [parseRecoveryCode_of_symbols hTyped hDigits hCount,
        if_neg (not_not.mpr hLeft), hOut, hSame]
    refine ⟨code, hCode, ?_, fun typed hTyped => ?_⟩
    · exact hParses code
        ((normalise_respelled (respelled_self code hUnits) hUnits).trans hFilter)
    · exact hParses typed
        ((normalise_respelled hTyped hUnits).trans hFilter)
  · obtain ⟨digits, hTyped, hDigits, hCount⟩ := symbols_of_parse hParse
    obtain ⟨written, hEnd, hWritten, hFour, hOut⟩ :=
      unpacking_unpacked hDigits hCount
    rw [parseRecoveryCode_of_symbols hTyped hDigits hCount] at hParse
    split at hParse
    · cases hParse
    · rename_i hLeft
      have hSecret := hOut.symm.trans (Except.ok.inj hParse)
      rw [hSecret] at hEnd hWritten
      have hBits := (leftover_eq_zero_iff hEnd hFour).mp (not_not.mp hLeft)
      obtain ⟨digits', hSymbols, hDigits', hCount', hBits'⟩ :=
        codeSymbols_recovery hWritten
      have hSame : digits' = digits := digits_injective (by decide) hDigits'
        hDigits (hBits'.trans hBits.symm)
      have hSome : digits' ≠ [] := fun hNil => by
        rw [hNil] at hCount'
        exact absurd hCount' (by decide)
      obtain ⟨code, hCode, hFilter, -⟩ :=
        formatRecoveryCode_eq hSymbols hDigits' hSome
      exact ⟨hWritten, code, hCode, by rw [hTyped, hFilter, hSame]⟩

end Parsing

/-! ## Codes of ASCII letters -/

theorem asciiUpper_space {u : CodeUnit} (h : isTrimmed u = true) :
    asciiUpper u = u := by
  have hLetters : ∀ n : Fin 26, isTrimmed (UInt16.ofNat (97 + n)) = false := by
    decide
  refine if_neg fun hLetter => ?_
  have hLetterUnit := hLetters ⟨u.toNat - 97, by omega⟩
  rw [show 97 + (u.toNat - 97) = u.toNat by omega, UInt16.ofNat_toNat, h]
    at hLetterUnit
  cases hLetterUnit

/-- The mapping that knows the case of ASCII letters only. -/
@[reducible] def asciiUpperMapping : UpperMapping where
  upper c := if c < 0x80 then [asciiUpper (UInt16.ofNat c)] else pointUnits c
  upper_ascii u hAscii := by rw [if_pos hAscii, UInt16.ofNat_toNat]
  upper_space u hSpace := by
    by_cases hAscii : u.toNat < 0x80
    · rw [if_pos hAscii, UInt16.ofNat_toNat, asciiUpper_space hSpace]
    · have hUnit := flatMap_pointUnits [u]
      rw [codePoints, List.flatMap_singleton] at hUnit
      rw [if_neg hAscii, hUnit]

theorem recoveryCode_decodes_zeros :
    letI := asciiUpperMapping
    ∃ code, formatRecoveryCode (List.replicate 32 0) = some code ∧
      parseRecoveryCode code = .ok (List.replicate 32 0) :=
  let ⟨code, hCode, hParse, _⟩ := (@recoveryCode_decodes asciiUpperMapping).1
    (List.replicate 32 0) List.length_replicate
  ⟨code, hCode, hParse⟩

end OpenApe.Ports.RecoveryCodes
