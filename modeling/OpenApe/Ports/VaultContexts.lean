import OpenApe.Verified.Frames
import OpenApe.Verified.Utf8Stream

/-!
# The contexts of vault cryptography (`packages/secrets-crypto/src/index.ts`)

Every ciphertext of the vault is bound to a context by its additional data,
and every derived key by its `info`.  The bytes of a context are the format,
the purpose and the identities, each behind its byte length; so they are
frames, and no two contexts have the same (`ctx_injective`).

The functions of WebCrypto are a parameter.  What is drawn at random is an
argument; `b64u` and `fromB64u`, which only spell bytes, are left out.
-/

namespace OpenApe.Ports.VaultContexts

open Verified.Frames Verified.JsText Verified.Json Verified.Utf8
open Verified.Utf8Decode (decodeUtf8 decodeUtf8_utf8)
open Verified.Utf8Stream (decodeText)

abbrev Bytes := List UInt8

/-! ## Context bytes -/

/-- `PREFIX` -/
def formatName : JsString := js "openape-secrets/v2"

/-- The bytes of `view.setUint32(at, n)`: big-endian, modulo `2 ^ 32`. -/
def uint32 (n : Nat) : Bytes :=
  [UInt8.ofNat (n / 0x1000000), UInt8.ofNat (n / 0x10000),
    UInt8.ofNat (n / 0x100), UInt8.ofNat n]

/-- `out.set(data, position)` -/
def setBytes (out : Bytes) (position : Nat) (data : Bytes) : Bytes :=
  out.take position ++ (data ++ out.drop (position + data.length))

/-- The variables of the loop of `ctx`. -/
structure Writer where
  out : Bytes
  position : Nat

/-- A turn of the loop: the length, then the item. -/
def writeItem (w : Writer) (item : Bytes) : Writer where
  out := setBytes (setBytes w.out w.position (uint32 item.length))
    (w.position + 4) item
  position := w.position + (4 + item.length)

/-- `items.reduce((n, item) => n + 4 + item.length, 0)` -/
def size (items : List Bytes) : Nat :=
  (items.map fun item => 4 + item.length).sum

def ctx (purpose : JsString) (parts : List JsString) : Bytes :=
  let items := (formatName :: purpose :: parts).map utf8
  (items.foldl writeItem ⟨List.replicate (size items) 0, 0⟩).out

/-- A text that is well formed and whose length fits in four bytes. -/
def Fits (part : JsString) : Prop :=
  wellPaired part = true ∧ (utf8 part).length < 0x100000000

instance (part : JsString) : Decidable (Fits part) :=
  inferInstanceAs (Decidable (_ ∧ _))

/-! ## The loop -/

/-- Writing where nothing was written yet. -/
theorem setBytes_append (front data : Bytes) (free : Nat) :
    setBytes (front ++ List.replicate (data.length + free) 0) front.length
      data = front ++ data ++ List.replicate free 0 := by
  have hTake : (front ++ List.replicate (data.length + free) (0 : UInt8)).take
      front.length = front := by simp
  have hDrop : (front ++ List.replicate (data.length + free) (0 : UInt8)).drop
      (front.length + data.length) = List.replicate free 0 := by
    rw [List.drop_append, List.drop_eq_nil_of_le (by omega), List.nil_append,
      List.drop_replicate]
    congr 1
    omega
  rw [setBytes, hTake, hDrop, List.append_assoc]

theorem writeItem_append (front item : Bytes) (free : Nat) :
    writeItem ⟨front ++ List.replicate (4 + item.length + free) 0,
        front.length⟩ item =
      ⟨front ++ (uint32 item.length ++ item) ++ List.replicate free 0,
        front.length + (4 + item.length)⟩ := by
  have hLabel := setBytes_append front (uint32 item.length)
    (item.length + free)
  have hItem := setBytes_append (front ++ uint32 item.length) item free
  have hFour : (uint32 item.length).length = 4 := rfl
  rw [hFour, ← Nat.add_assoc] at hLabel
  rw [List.length_append, hFour] at hItem
  rw [writeItem, hLabel, hItem, List.append_assoc front]

/-- The loop writes the frames of the items. -/
theorem foldl_writeItem (front : Bytes) (items : List Bytes) :
    (items.foldl writeItem ⟨front ++ List.replicate (size items) 0,
      front.length⟩).out = front ++ framed uint32 items := by
  induction items generalizing front with
  | nil => simp [size, framed]
  | cons item items ih =>
      have hSize : size (item :: items) = 4 + item.length + size items := by
        rw [size, List.map_cons, List.sum_cons]
        rfl
      have hLength : (front ++ (uint32 item.length ++ item)).length =
          front.length + (4 + item.length) := by
        simp [uint32]
        omega
      rw [List.foldl_cons, hSize, writeItem_append, ← hLength, ih, framed_cons]
      simp only [List.append_assoc]

theorem ctx_eq (purpose : JsString) (parts : List JsString) :
    ctx purpose parts =
      framed uint32 ((formatName :: purpose :: parts).map utf8) :=
  foldl_writeItem [] _

/-! ## Contexts -/

theorem telling_uint32 : Telling uint32 (· < 0x100000000) where
  width := ⟨4, by decide, fun _ => rfl⟩
  apart := by
    intro m n hm hn h
    have hBytes := congrArg (List.map UInt8.toNat) h
    simp only [uint32, List.map_cons, List.map_nil, UInt8.toNat_ofNat',
      List.cons.injEq] at hBytes
    omega

/-- Well-formed texts of the same bytes are the same. -/
theorem map_utf8_inj {texts texts' : List JsString}
    (h : ∀ text ∈ texts, wellPaired text = true)
    (h' : ∀ text ∈ texts', wellPaired text = true)
    (hSame : texts.map utf8 = texts'.map utf8) : texts = texts' := by
  have hBack : ∀ texts : List JsString,
      (∀ text ∈ texts, wellPaired text = true) →
      (texts.map utf8).map decodeUtf8 = texts.map some := by
    intro texts hTexts
    rw [List.map_map]
    exact List.map_congr_left fun text hText =>
      decodeUtf8_utf8 (hTexts text hText)
  have hRead := congrArg (List.map decodeUtf8) hSame
  rw [hBack texts h, hBack texts' h'] at hRead
  exact List.map_injective_iff.mpr (Option.some_injective _) hRead

/-- **No two contexts have the same bytes.** -/
theorem ctx_injective {purpose purpose' : JsString}
    {parts parts' : List JsString} (h : ∀ part ∈ purpose :: parts, Fits part)
    (h' : ∀ part ∈ purpose' :: parts', Fits part)
    (hSame : ctx purpose parts = ctx purpose' parts') :
    purpose = purpose' ∧ parts = parts' := by
  have hAll : ∀ {texts : List JsString}, (∀ text ∈ texts, Fits text) →
      ∀ text ∈ formatName :: texts, Fits text := by
    intro texts hTexts
    exact List.forall_mem_cons.mpr ⟨by decide, hTexts⟩
  have hShort : ∀ {texts : List JsString}, (∀ text ∈ texts, Fits text) →
      ∀ item ∈ texts.map utf8, item.length < 0x100000000 := by
    intro texts hTexts item hItem
    obtain ⟨text, hText, rfl⟩ := List.mem_map.mp hItem
    exact (hTexts text hText).2
  rw [ctx_eq, ctx_eq] at hSame
  have hItems := framed_injective telling_uint32 (hShort (hAll h))
    (hShort (hAll h')) hSame
  have hTexts := map_utf8_inj (fun text hText => (hAll h text hText).1)
    (fun text hText => (hAll h' text hText).1) hItems
  exact List.cons.inj (List.cons.inj hTexts).2

/-! ## Sealing and opening -/

/-- What the vault uses of WebCrypto; `decrypt` rejects as none. -/
structure WebCrypto where
  Key : Type
  Ciphertext : Type
  /-- `importKey('raw', …)` of an AES key. -/
  importKey : Bytes → Key
  /-- HKDF, of the key material, the salt and the `info`. -/
  deriveKey : Bytes → Bytes → Bytes → Key
  /-- AES-GCM, of the IV, the plaintext and the additional data. -/
  encrypt : Key → Bytes → Bytes → Bytes → Ciphertext
  decrypt : Key → Bytes → Ciphertext → Bytes → Option Bytes

/-- AES-GCM opens under the key, the IV and the additional data it sealed
with, and under no other key or additional data; HKDF derives another key for
another `info`. -/
structure Authenticated (crypto : WebCrypto) : Prop where
  opens : ∀ key iv plaintext data,
    crypto.decrypt key iv (crypto.encrypt key iv plaintext data) data =
      some plaintext
  bound : ∀ key key' iv iv' plaintext data data',
    (crypto.decrypt key' iv' (crypto.encrypt key iv plaintext data)
      data').isSome = true → key' = key ∧ data' = data
  derived : ∀ material salt info info',
    crypto.deriveKey material salt info =
      crypto.deriveKey material salt info' → info = info'

structure Sealed (crypto : WebCrypto) where
  iv : Bytes
  ct : crypto.Ciphertext

structure SecretIds where
  vaultId : JsString
  secretId : JsString
  version : JsonNumber
  deriving DecidableEq

structure SealedSecret (crypto : WebCrypto) where
  value : Sealed crypto
  dek : Sealed crypto

/-- What `sealSecret` draws. -/
structure SealDraws where
  dek : Bytes
  valueIv : Bytes
  dekIv : Bytes

section Crypto

variable (crypto : WebCrypto)

/-- `encrypt`, under an IV that was drawn. -/
def encrypt (iv : Bytes) (key : crypto.Key) (plaintext data : Bytes) :
    Sealed crypto :=
  ⟨iv, crypto.encrypt key iv plaintext data⟩

def decrypt (key : crypto.Key) (package : Sealed crypto) (data : Bytes) :
    Option Bytes :=
  crypto.decrypt key package.iv package.ct data

/-- `[ids.vaultId, ids.secretId, String(ids.version)]` -/
def SecretIds.parts (ids : SecretIds) : List JsString :=
  [ids.vaultId, ids.secretId, ids.version.text]

def sealSecret (vmk : Bytes) (plaintext : JsString) (ids : SecretIds)
    (draws : SealDraws) : SealedSecret crypto where
  value := encrypt crypto draws.valueIv (crypto.importKey draws.dek)
    (utf8 plaintext) (ctx (js "secret-value") ids.parts)
  dek := encrypt crypto draws.dekIv (crypto.importKey vmk) draws.dek
    (ctx (js "dek-wrap") ids.parts)

def openSecret (vmk : Bytes) (package : SealedSecret crypto)
    (ids : SecretIds) : Option JsString := do
  let dek ← decrypt crypto (crypto.importKey vmk) package.dek
    (ctx (js "dek-wrap") ids.parts)
  let value ← decrypt crypto (crypto.importKey dek) package.value
    (ctx (js "secret-value") ids.parts)
  some (decodeText value)

variable {crypto}

/-- **A secret opens under its own identity only.** -/
theorem openSecret_isSome_iff (hCrypto : Authenticated crypto) (vmk : Bytes)
    (plaintext : JsString) (draws : SealDraws) {ids ids' : SecretIds}
    (h : ∀ part ∈ ids.parts, Fits part)
    (h' : ∀ part ∈ ids'.parts, Fits part) :
    (openSecret crypto vmk (sealSecret crypto vmk plaintext ids draws)
      ids').isSome = true ↔ ids' = ids := by
  constructor
  · intro hOpens
    obtain ⟨text, hText⟩ := Option.isSome_iff_exists.mp hOpens
    obtain ⟨dek, hDek, -⟩ := Option.bind_eq_some_iff.mp hText
    have hData := (hCrypto.bound _ _ _ _ _ _ _
      (Option.isSome_iff_exists.mpr ⟨dek, hDek⟩)).2
    have hParts : ids'.parts = ids.parts :=
      (ctx_injective (List.forall_mem_cons.mpr ⟨by decide, h'⟩)
        (List.forall_mem_cons.mpr ⟨by decide, h⟩) hData).2
    simp only [SecretIds.parts, List.cons.injEq, and_true] at hParts
    obtain ⟨hVault, hSecret, hVersion⟩ := hParts
    cases ids with
    | mk vaultId secretId version =>
        cases ids' with
        | mk vaultId' secretId' version' =>
            cases version
            cases version'
            simp only at hVault hSecret hVersion
            rw [SecretIds.mk.injEq, JsonNumber.mk.injEq]
            exact ⟨hVault, hSecret, hVersion⟩
  · rintro rfl
    have hDek := hCrypto.opens (crypto.importKey vmk) draws.dekIv draws.dek
      (ctx (js "dek-wrap") ids'.parts)
    have hValue := hCrypto.opens (crypto.importKey draws.dek) draws.valueIv
      (utf8 plaintext) (ctx (js "secret-value") ids'.parts)
    exact Option.isSome_iff_exists.mpr ⟨decodeText (utf8 plaintext),
      Option.bind_eq_some_iff.mpr ⟨_, hDek,
        Option.bind_eq_some_iff.mpr ⟨_, hValue, rfl⟩⟩⟩

end Crypto

/-- Bytes, ciphertexts and derived keys of one context are those of no
other. -/
structure Unambiguous (purpose purpose' : JsString)
    (parts parts' : List JsString) : Prop where
  bytes : ctx purpose parts = ctx purpose' parts' →
    purpose = purpose' ∧ parts = parts'
  ciphertexts : ∀ crypto : WebCrypto, Authenticated crypto →
    ∀ (key key' : crypto.Key) (iv plaintext : Bytes),
      (decrypt crypto key' (encrypt crypto iv key plaintext
        (ctx purpose parts)) (ctx purpose' parts')).isSome = true →
      purpose = purpose' ∧ parts = parts'
  keys : ∀ crypto : WebCrypto, Authenticated crypto →
    ∀ material salt : Bytes,
      crypto.deriveKey material salt (ctx purpose parts) =
        crypto.deriveKey material salt (ctx purpose' parts') →
      purpose = purpose' ∧ parts = parts'

/-- **Vault contexts are unambiguous**, and a secret opens in its own only. -/
theorem contexts_unambiguous (purpose purpose' : JsString)
    (parts parts' : List JsString) (h : ∀ part ∈ purpose :: parts, Fits part)
    (h' : ∀ part ∈ purpose' :: parts', Fits part) :
    Unambiguous purpose purpose' parts parts' ∧
      ∀ (crypto : WebCrypto), Authenticated crypto →
        ∀ (vmk : Bytes) (plaintext : JsString) (draws : SealDraws)
          (ids ids' : SecretIds), (∀ part ∈ ids.parts, Fits part) →
          (∀ part ∈ ids'.parts, Fits part) →
          ((openSecret crypto vmk (sealSecret crypto vmk plaintext ids draws)
            ids').isSome = true ↔ ids' = ids) := by
  refine ⟨⟨ctx_injective h h', ?_, ?_⟩, ?_⟩
  · intro crypto hCrypto key key' iv plaintext hOpens
    exact ctx_injective h h' (hCrypto.bound _ _ _ _ _ _ _ hOpens).2.symm
  · intro crypto hCrypto material salt hSame
    exact ctx_injective h h' (hCrypto.derived _ _ _ _ hSame)
  · intro crypto hCrypto vmk plaintext draws ids ids' hIds hIds'
    exact openSecret_isSome_iff hCrypto vmk plaintext draws hIds hIds'

/-! ## A sample -/

/-- A cryptography that writes down what it was given. -/
@[reducible] def openCrypto : WebCrypto where
  Key := List Bytes
  Ciphertext := List Bytes × Bytes × Bytes × Bytes
  importKey raw := [raw]
  deriveKey material salt info := [material, salt, info]
  encrypt key iv plaintext data := (key, iv, plaintext, data)
  decrypt key iv ct data :=
    if (ct.1, ct.2.1, ct.2.2.2) = (key, iv, data) then some ct.2.2.1 else none

theorem authenticated_openCrypto : Authenticated openCrypto where
  opens _ _ _ _ := if_pos rfl
  bound key key' iv iv' plaintext data data' h := by
    change (if (key, iv, data) = (key', iv', data') then some plaintext
      else none).isSome = true at h
    by_cases hSame : (key, iv, data) = (key', iv', data')
    · cases hSame
      exact ⟨rfl, rfl⟩
    · rw [if_neg hSame] at h
      cases h
  derived _ _ _ _ h := by
    cases h
    rfl

def ids (version : Nat) : SecretIds := ⟨js "v", js "s", .ofNat version⟩

/-- A value does not open as a key, nor its first version as the second. -/
theorem contexts_unambiguous_secret :
    ctx (js "secret-value") (ids 1).parts ≠ ctx (js "dek-wrap") (ids 1).parts ∧
      (openSecret openCrypto [7] (sealSecret openCrypto [7] (js "text") (ids 1)
        ⟨[8], [9], [10]⟩) (ids 2)).isSome = false := by
  have h := contexts_unambiguous (js "secret-value") (js "dek-wrap")
    (ids 1).parts (ids 1).parts (by decide +kernel) (by decide +kernel)
  refine ⟨fun hSame => absurd (h.1.bytes hSame).1 (by decide), ?_⟩
  rw [Bool.eq_false_iff]
  intro hOpens
  have hSame := (h.2 openCrypto authenticated_openCrypto _ _ _ _ _
    (by decide +kernel) (by decide +kernel)).mp hOpens
  revert hSame
  decide +kernel

end OpenApe.Ports.VaultContexts
