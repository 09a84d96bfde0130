import OpenApe.Ports.LockEntries
import OpenApe.Verified.JsonReading

/-!
# Canonical JSON
(`apps/openape-pods/src/contracts/canonical-json.ts`,
`main/central/controller.ts`)

A command is compared with the one that was submitted by the canonical text:
JSON with the keys of every object sorted.  Two values have one text exactly
when they are equal up to the order of keys.
-/

namespace OpenApe.Ports.CanonicalJson

open Verified.JsText Verified.Json
open LockEntries

/-! ## The code -/

mutual

/-- `canonicalJson(value)`, on JSON values, of which none is refused. -/
def canonicalJson : JsonValue → JsString
  | .array items =>
      unit '[' :: ((js ",").intercalate (canonicalItems items) ++ [unit ']'])
  | .object members =>
      unit '{' :: ((js ",").intercalate
        (((canonicalMembers members).insertionSort
          (fun a b => a.1 ≤ b.1)).map fun m => quote m.1 ++ unit ':' :: m.2) ++
        [unit '}'])
  | value => stringify value

def canonicalItems : List JsonValue → List JsString
  | [] => []
  | item :: items => canonicalJson item :: canonicalItems items

/-- The keys with the texts of their values. -/
def canonicalMembers : Members → List (JsString × JsString)
  | [] => []
  | (key, value) :: members =>
      (key, canonicalJson value) :: canonicalMembers members

end

structure CentralOperation where
  runtimeId : JsString
  command : JsonValue

/-- What is compared of a submitted body; a `runtimeId` that is missing or
`null` is none. -/
structure Submission where
  runtimeId : Option JsString
  command : JsonValue

/-- `this.matchingOperation(operation, body)` -/
def matchingOperation (runtimeId : Option JsString)
    (operation : CentralOperation) (body : Submission) : Bool :=
  some operation.runtimeId == body.runtimeId.or runtimeId &&
    canonicalJson operation.command == canonicalJson body.command

/-- Defines an own property: a later member of a text takes the place of an
earlier one with its key. -/
def defineMember (members : Members) (member : JsString × JsonValue) :
    Members :=
  if member.1 ∈ members.map Prod.fst then
    members.map fun m => if m.1 = member.1 then member else m
  else members ++ [member]

/-- The members of an object that is built from a text's. -/
def objectOf (members : Members) : Members :=
  propertyOrder (members.foldl defineMember [])

/-- `JSON.parse(text)`, none where it throws. -/
def parse [NumberReading] (text : JsString) : Option JsonValue :=
  (readJson text).map (mapObjects objectOf)

/-! ## Equality up to the order of keys -/

mutual

/-- The same value, but for the order of the keys of objects at any depth. -/
def Same : JsonValue → JsonValue → Prop
  | .null, other => other = .null
  | .bool value, other => other = .bool value
  | .number value, other => other = .number value
  | .string value, other => other = .string value
  | .array items, other =>
      ∃ items', other = .array items' ∧ SameItems items items'
  | .object members, other =>
      ∃ members', other = .object members' ∧ SameMembers members members'

def SameItems : List JsonValue → List JsonValue → Prop
  | [], others => others = []
  | item :: items, others =>
      ∃ item' items', others = item' :: items' ∧ Same item item' ∧
        SameItems items items'

/-- Each member has its counterpart, wherever that stands. -/
def SameMembers : Members → Members → Prop
  | [], others => others = []
  | (key, value) :: members, others =>
      ∃ before value' after, others = before ++ (key, value') :: after ∧
        Same value value' ∧ SameMembers members (before ++ after)

end

/-! ## The sorted value -/

theorem mapObjectsItems_eq (arrange : Members → Members)
    (items : List JsonValue) :
    mapObjectsItems arrange items = items.map (mapObjects arrange) := by
  induction items with
  | nil => rfl
  | cons item items ih => rw [mapObjectsItems, ih]; rfl

theorem mapObjectsMembers_eq (arrange : Members → Members)
    (members : Members) :
    mapObjectsMembers arrange members =
      members.map fun m => (m.1, mapObjects arrange m.2) := by
  induction members with
  | nil => rfl
  | cons member members ih => rw [mapObjectsMembers, ih]; rfl

theorem map_fst_mapObjectsMembers (arrange : Members → Members)
    (members : Members) :
    (mapObjectsMembers arrange members).map Prod.fst =
      members.map Prod.fst := by
  rw [mapObjectsMembers_eq, List.map_map]
  rfl

/-- Members with different keys are sorted in one way only. -/
theorem sortedOrder_eq_iff {members members' : Members}
    (hKeys : (members.map Prod.fst).Nodup) :
    sortedOrder members = sortedOrder members' ↔ members.Perm members' := by
  have hPerm : ∀ members, (sortedOrder members).Perm members :=
    fun members => List.perm_insertionSort _ members
  have hSorted : ∀ members,
      (sortedOrder members).Pairwise fun a b => a.1 ≤ b.1 := by
    intro members
    have : IsTrans (JsString × JsonValue) fun a b => a.1 ≤ b.1 :=
      ⟨fun _ _ _ => List.le_trans⟩
    have : Std.Total fun a b : JsString × JsonValue => a.1 ≤ b.1 :=
      ⟨fun a b => List.le_total a.1 b.1⟩
    exact List.pairwise_insertionSort _ members
  constructor
  · intro h
    exact (hPerm members).symm.trans (h ▸ hPerm members')
  · intro h
    refine List.Perm.eq_of_pairwise (fun a b ha hb hab hba => ?_)
      (hSorted members) (hSorted members')
      ((hPerm members).trans (h.trans (hPerm members').symm))
    have hb' := h.mem_iff.mpr ((hPerm members').mem_iff.mp hb)
    exact List.inj_on_of_nodup_map hKeys ((hPerm members).mem_iff.mp ha) hb'
      (List.le_antisymm hab hba)

theorem mapObjectsItems_eq_iff {items : List JsonValue}
    (ih : ∀ item ∈ items, ∀ other, mapObjects sortedOrder item =
      mapObjects sortedOrder other ↔ Same item other)
    (others : List JsonValue) :
    mapObjectsItems sortedOrder items = mapObjectsItems sortedOrder others ↔
      SameItems items others := by
  induction items generalizing others with
  | nil => cases others <;> simp [mapObjectsItems, SameItems]
  | cons item items ihTail =>
      have hTail := ihTail fun i hi => ih i (List.mem_cons_of_mem _ hi)
      cases others with
      | nil => simp [mapObjectsItems, SameItems]
      | cons other others =>
          simp [mapObjectsItems, SameItems, ih item (List.mem_cons_self ..),
            hTail, and_assoc]

theorem mapObjectsMembers_perm_iff {members : Members}
    (ih : ∀ member ∈ members, ∀ other, mapObjects sortedOrder member.2 =
      mapObjects sortedOrder other ↔ Same member.2 other)
    (others : Members) :
    (mapObjectsMembers sortedOrder members).Perm
        (mapObjectsMembers sortedOrder others) ↔
      SameMembers members others := by
  induction members generalizing others with
  | nil =>
      rw [mapObjectsMembers, List.nil_perm, SameMembers,
        mapObjectsMembers_eq, List.map_eq_nil_iff]
  | cons member members ihTail =>
      obtain ⟨key, value⟩ := member
      have hTail := ihTail fun m hm => ih m (List.mem_cons_of_mem _ hm)
      have hValue := ih (key, value) (List.mem_cons_self ..)
      have hMiddle : ∀ before after (value' : JsonValue),
          (mapObjectsMembers sortedOrder
            (before ++ (key, value') :: after)).Perm
          ((key, mapObjects sortedOrder value') ::
            mapObjectsMembers sortedOrder (before ++ after)) := by
        intro before after value'
        simp only [mapObjectsMembers_eq, List.map_append, List.map_cons]
        exact List.perm_middle
      rw [mapObjectsMembers, SameMembers]
      constructor
      · intro h
        have hMem := h.mem_iff.mp (List.mem_cons_self ..)
        rw [mapObjectsMembers_eq, List.mem_map] at hMem
        obtain ⟨⟨_, value'⟩, hOther, hEq⟩ := hMem
        obtain ⟨rfl, hSorted⟩ := Prod.mk.inj hEq
        obtain ⟨before, after, rfl⟩ := List.append_of_mem hOther
        have hRest := h.trans (hMiddle before after value')
        rw [hSorted] at hRest
        exact ⟨before, value', after, rfl, (hValue value').mp hSorted.symm,
          (hTail _).mp hRest.cons_inv⟩
      · rintro ⟨before, value', after, rfl, hSame, hSames⟩
        rw [(hValue value').mpr hSame]
        exact (((hTail _).mpr hSames).cons _).trans
          (hMiddle before after value').symm

section

variable [NumberReading]

/-- **Sorting the keys at every depth identifies values.** -/
theorem mapObjects_sortedOrder_eq_iff {value : JsonValue}
    (h : Proper value) (other : JsonValue) :
    mapObjects sortedOrder value = mapObjects sortedOrder other ↔
      Same value other := by
  induction h generalizing other with
  | null => cases other <;> simp [mapObjects, Same]
  | bool value => cases other <;> simp [mapObjects, Same, eq_comm]
  | number hRead => cases other <;> simp [mapObjects, Same, eq_comm]
  | string value => cases other <;> simp [mapObjects, Same, eq_comm]
  | array hItems ih =>
      cases other with
      | array others =>
          simp only [mapObjects, Same, JsonValue.array.injEq,
            mapObjectsItems_eq_iff ih, exists_eq_left']
      | _ => simp [mapObjects, Same]
  | object hKeys hMembers ih =>
      cases other with
      | object others =>
          simp only [mapObjects, Same, JsonValue.object.injEq,
            exists_eq_left']
          rw [sortedOrder_eq_iff (by rwa [map_fst_mapObjectsMembers])]
          exact mapObjectsMembers_perm_iff ih others
      | _ => simp [mapObjects, Same]

end

/-! ## Rearranged values -/

/-- Members with different keys stay, in some order. -/
def Rearranges (arrange : Members → Members) : Prop :=
  ∀ members, (members.map Prod.fst).Nodup →
    (arrange members).Perm members

theorem rearranges_sortedOrder : Rearranges sortedOrder :=
  fun members _ => List.perm_insertionSort _ members

theorem perm_propertyOrder (members : Members) :
    (propertyOrder members).Perm members := by
  have hNone : (fun m : JsString × JsonValue =>
      (Record.arrayIndex m.1).isNone) =
        fun m => !(Record.arrayIndex m.1).isSome := by
    funext m
    cases Record.arrayIndex m.1 <;> rfl
  rw [propertyOrder, hNone]
  exact ((List.perm_insertionSort _ _).append_right _).trans
    (List.filter_append_perm _ members)

theorem foldl_defineMember {defined members : Members}
    (h : ((defined ++ members).map Prod.fst).Nodup) :
    members.foldl defineMember defined = defined ++ members := by
  induction members generalizing defined with
  | nil => exact (List.append_nil _).symm
  | cons member members ih =>
      have hFresh : member.1 ∉ defined.map Prod.fst := by
        rw [List.map_append, List.nodup_append] at h
        exact fun hMem => h.2.2 _ hMem _ (by simp) rfl
      rw [List.append_cons] at h ⊢
      rw [List.foldl_cons, defineMember, if_neg hFresh, ih h]

theorem rearranges_objectOf : Rearranges objectOf := by
  intro members hKeys
  rw [objectOf, foldl_defineMember (by exact hKeys)]
  exact perm_propertyOrder members

theorem mapObjects_rearranged [NumberReading]
    {arrange : Members → Members} (hArrange : Rearranges arrange)
    {value : JsonValue} (h : Proper value) :
    Proper (mapObjects arrange value) ∧
      mapObjects sortedOrder (mapObjects arrange value) =
        mapObjects sortedOrder value := by
  induction h with
  | null => exact ⟨.null, rfl⟩
  | bool value => exact ⟨.bool value, rfl⟩
  | number hRead => exact ⟨.number hRead, rfl⟩
  | string value => exact ⟨.string value, rfl⟩
  | @array items hItems ih =>
      simp only [mapObjects, mapObjectsItems_eq, List.map_map]
      refine ⟨.array fun other hOther => ?_, congrArg JsonValue.array
        (List.map_congr_left fun item hItem => (ih item hItem).2)⟩
      obtain ⟨item, hItem, rfl⟩ := List.mem_map.mp hOther
      exact (ih item hItem).1
  | @object members hKeys hMembers ih =>
      have hInner : ((mapObjectsMembers arrange members).map
          Prod.fst).Nodup := by
        rwa [map_fst_mapObjectsMembers]
      have hPerm := hArrange _ hInner
      have hKeys' := (hPerm.map Prod.fst).nodup_iff.mpr hInner
      simp only [mapObjects]
      refine ⟨.object hKeys' fun other hOther => ?_, ?_⟩
      · rw [hPerm.mem_iff, mapObjectsMembers_eq] at hOther
        obtain ⟨member, hMember, rfl⟩ := List.mem_map.mp hOther
        exact (ih member hMember).1
      · refine congrArg JsonValue.object ((sortedOrder_eq_iff
          (by rwa [map_fst_mapObjectsMembers])).mpr ?_)
        simp only [mapObjectsMembers_eq] at hPerm ⊢
        have hMapped := hPerm.map fun m : JsString × JsonValue =>
          (m.1, mapObjects sortedOrder m.2)
        rw [List.map_map] at hMapped
        refine hMapped.trans (.of_eq (List.map_congr_left ?_))
        exact fun member hMember =>
          congrArg (Prod.mk member.1) (ih member hMember).2

/-! ## The canonical text -/

theorem canonicalItems_eq (items : List JsonValue) :
    canonicalItems items = items.map canonicalJson := by
  induction items with
  | nil => rfl
  | cons item items ih => rw [canonicalItems, ih]; rfl

theorem canonicalMembers_eq (members : Members) :
    canonicalMembers members =
      members.map fun m => (m.1, canonicalJson m.2) := by
  induction members with
  | nil => rfl
  | cons member members ih => rw [canonicalMembers, ih]; rfl

section

variable [NumberReading]

/-- The canonical text is the text of the sorted value. -/
theorem canonicalJson_eq {value : JsonValue} (h : Proper value) :
    canonicalJson value = stringify (mapObjects sortedOrder value) := by
  induction h with
  | null => rfl
  | bool value => rfl
  | number hRead => rfl
  | string value => rfl
  | @array items hItems ih =>
      have hTexts : items.map canonicalJson =
          (items.map (mapObjects sortedOrder)).map stringify := by
        rw [List.map_map]
        exact List.map_congr_left ih
      rw [canonicalJson, mapObjects, stringify_array, canonicalItems_eq,
        mapObjectsItems_eq, hTexts]
  | @object members hKeys hMembers ih =>
      have hTexts : canonicalMembers members =
          (mapObjectsMembers sortedOrder members).map
            fun m => (m.1, stringify m.2) := by
        rw [canonicalMembers_eq, mapObjectsMembers_eq, List.map_map]
        exact List.map_congr_left fun m hm =>
          congrArg (Prod.mk m.1) (ih m hm)
      have hSort := List.map_insertionSort
        (r := fun a b : JsString × JsonValue => a.1 ≤ b.1)
        (s := fun a b : JsString × JsString => a.1 ≤ b.1)
        (fun m : JsString × JsonValue => (m.1, stringify m.2))
        (mapObjectsMembers sortedOrder members) fun _ _ _ _ => Iff.rfl
      rw [canonicalJson, mapObjects, stringify_object, hTexts, ← hSort,
        List.map_map]
      rfl

theorem canonicalJson_eq_iff {value other : JsonValue} (h : Proper value)
    (h' : Proper other) :
    canonicalJson value = canonicalJson other ↔ Same value other := by
  rw [canonicalJson_eq h, canonicalJson_eq h', stringify_injective.eq_iff]
  exact mapObjects_sortedOrder_eq_iff h other

/-- Parsing gives back the value, up to the order of keys. -/
theorem parse_canonicalJson {value : JsonValue} (h : Proper value) :
    ∃ parsed, parse (canonicalJson value) = some parsed ∧
      Proper parsed ∧ Same value parsed := by
  obtain ⟨hProper, hSorted⟩ := mapObjects_rearranged rearranges_sortedOrder h
  obtain ⟨hParsed, hSame⟩ :=
    mapObjects_rearranged rearranges_objectOf hProper
  refine ⟨_, ?_, hParsed, ?_⟩
  · rw [parse, canonicalJson_eq h, readJson_stringify hProper.readable,
      Option.map_some]
  · exact (mapObjects_sortedOrder_eq_iff h _).mp
      ((hSame.trans hSorted).symm)

theorem matchingOperation_iff {runtimeId : Option JsString}
    {operation : CentralOperation} {body : Submission}
    (h : Proper operation.command) (h' : Proper body.command) :
    matchingOperation runtimeId operation body = true ↔
      some operation.runtimeId = body.runtimeId.or runtimeId ∧
        Same operation.command body.command := by
  rw [matchingOperation, Bool.and_eq_true, beq_iff_eq, beq_iff_eq,
    canonicalJson_eq_iff h h']

/-- **Canonical JSON identifies values.** -/
theorem canonicalJson_identifies {value other : JsonValue}
    (h : Proper value) (h' : Proper other) :
    (canonicalJson value = canonicalJson other ↔ Same value other) ∧
      (∃ parsed, parse (canonicalJson value) = some parsed ∧
        Proper parsed ∧ Same value parsed) ∧
      (∀ runtimeId id submitted,
        matchingOperation runtimeId ⟨id, value⟩ ⟨submitted, other⟩ = true ↔
          some id = submitted.or runtimeId ∧ Same value other) ∧
      ∀ digest : JsString → JsString,
        digest (canonicalJson value) = digest (canonicalJson other) ↔
          Same value other ∨ (canonicalJson value ≠ canonicalJson other ∧
            digest (canonicalJson value) = digest (canonicalJson other)) := by
  have hText := canonicalJson_eq_iff h h'
  refine ⟨hText, parse_canonicalJson h, fun runtimeId id submitted =>
    @matchingOperation_iff _ runtimeId ⟨id, value⟩ ⟨submitted, other⟩ h h',
    fun digest => ?_⟩
  rw [← hText]
  constructor
  · intro hDigest
    by_cases hEq : canonicalJson value = canonicalJson other
    · exact .inl hEq
    · exact .inr ⟨hEq, hDigest⟩
  · rintro (hEq | ⟨_, hDigest⟩)
    · rw [hEq]
    · exact hDigest

end

/-! ## A sample -/

def ready : JsString × JsonValue := (js "ready", .bool true)

def proto : JsString × JsonValue :=
  (js "__proto__", .array [.number ⟨js "-2.5e-7", by decide, by decide⟩])

/-- The order of keys makes no difference, whatever their names. -/
theorem canonicalJson_identifies_twins :
    Same (.object [ready, proto]) (.object [proto, ready]) ∧
      ∃ parsed, @parse plainNumbers
          (canonicalJson (.object [ready, proto])) = some parsed ∧
        Same (.object [ready, proto]) parsed := by
  let _ : NumberReading := plainNumbers
  have hNumber : NumberReading.read (js "-2.5e-7") =
      some ⟨js "-2.5e-7", by decide, by decide⟩ := rfl
  have hReady : Proper ready.2 := .bool true
  have hProto : Proper proto.2 := .array fun item hItem => by
    rw [List.mem_singleton.mp hItem]
    exact .number hNumber
  have h := canonicalJson_identifies
    (Proper.object (by decide +kernel)
      (List.forall_mem_cons.mpr ⟨hReady, List.forall_mem_singleton.mpr hProto⟩))
    (Proper.object (by decide +kernel)
      (List.forall_mem_cons.mpr ⟨hProto, List.forall_mem_singleton.mpr hReady⟩))
  obtain ⟨parsed, hParse, _, hSame⟩ := h.2.1
  exact ⟨h.1.mp (by decide +kernel), parsed, hParse, hSame⟩

end OpenApe.Ports.CanonicalJson
