import OpenApe.Ports.RefreshMachine

/-!
# One live token per family

A consumption reads its token and the family and writes afterwards, so what
it found may no longer hold when it marks the token.  `undisturbed` says of
each turn what must still hold: a token that is marked is unused, a used
token is presented before its end, and no other consumption of the family is
past its checks when such a presentation ends.  In undisturbed runs a token is
consumed at most once, a family has at most one unused token, and a used
token that is presented kills its family (`rotation_holds`).
-/

namespace OpenApe.Ports.RefreshRotation

open Verified.JsText Verified.KeyedTable Verified.Programs
  Verified.Programs.Program Verified.Interleaving
open GrantTypes RefreshTokens RefreshMachine

/-! ## What a call is about -/

/-- The family whose next unused token the call inserts. -/
def Stage.slot : Stage → Option JsString
  | .opened _ family => some family.familyId
  | .replacing entry _ _ => some entry.familyId
  | _ => none

/-- The family of a consumption past its checks. -/
def Stage.rotates : Stage → Option JsString
  | .rotating _ entry _ => some entry.familyId
  | .replacing entry _ _ => some entry.familyId
  | .closing entry _ => some entry.familyId
  | _ => none

/-- The used token a consumption has found. -/
def Stage.presents : Stage → Option RefreshTokenRow
  | .found _ entry => if entry.used then some entry else none
  | .rejecting entry => some entry
  | _ => none

/-- A consumption that has marked its token and was not refused since. -/
def Stage.spends : Stage → Bool
  | .replacing _ _ _ => true
  | .closing _ _ => true
  | .ended (.ok _) => true
  | _ => false

section Rotation

variable (hashToken : JsString → JsString) (runtime : RefreshRuntime)

/-- The family is there and revoked. -/
def Revoked (familyId : JsString) (w : RefreshWorld) : Prop :=
  ∃ family, w.families.find? familyId = some family ∧ family.revoked = true

/-! ## Undisturbed runs -/

/-- No consumption of the family is past its checks. -/
def noneRotates (familyId : JsString) (m : Machine) : Bool :=
  m.stages.all (fun stage => Stage.rotates stage ≠ some familyId)

/-- What must still hold when the call at `i` takes its turn. -/
def turnAllowed (m : Machine) (i : Nat) : Bool :=
  match m.stages[i]? with
  | some (.rotating tokenHash _ _) =>
      -- The token was not used since it was read.
      (m.world.tokens.find? tokenHash).any (fun row => !row.used)
  | some (.found _ entry) =>
      if entry.used then
        match m.world.families.find? entry.familyId with
        | none => true
        | some family =>
            if family.revoked then noneRotates entry.familyId m
            else !decide (entry.expiresAt < runtime.now m.world.moment)
      else true
  | some (.rejecting entry) => noneRotates entry.familyId m
  | _ => true

/-- Every turn of the schedule is allowed. -/
def undisturbed : List Nat → Machine → Bool
  | [], _ => true
  | i :: schedule, m =>
      turnAllowed runtime m i &&
        undisturbed schedule (m.turn hashToken runtime i)

/-! ## The invariant -/

/-- The stages a call can be at. -/
def Belongs (call : RefreshCall) : Stage → Prop
  | .start started => started = call
  | .found tokenHash _ | .rotating tokenHash _ _ =>
      ∃ token, call = .consume token ∧ tokenHash = hashToken token
  | .rejecting _ | .replacing _ _ _ | .closing _ _ =>
      ∃ token, call = .consume token
  | .seeded _ _ | .opened _ _ => ∀ token, call ≠ .consume token
  | .revoking _ => ∀ token, call ≠ .consume token
  | .ended _ => True

/-- What a call knows about the database. -/
def Knows (w : RefreshWorld) : Stage → Prop
  | .opened _ family => w.families.find? family.familyId ≠ none
  | .found tokenHash entry | .rotating tokenHash entry _ =>
      w.families.find? entry.familyId ≠ none ∧
        ∃ row, w.tokens.find? tokenHash = some row ∧
          row.familyId = entry.familyId
  | .rejecting entry => w.families.find? entry.familyId ≠ none
  | .replacing entry _ _ => w.families.find? entry.familyId ≠ none
  | _ => True

/-- No two calls wait for the same family. -/
def SlotsDistinct (stages : List Stage) : Prop :=
  ∀ (i j : Nat) (stage stage' : Stage) (familyId : JsString),
    stages[i]? = some stage → stages[j]? = some stage' →
    Stage.slot stage = some familyId → Stage.slot stage' = some familyId →
    i = j

/-- The tokens and the families that wait for one: together at most one for
each family. -/
structure OneUnused (m : Machine) : Prop where
  tokenFamily : ∀ row ∈ m.world.tokens.rows,
    m.world.families.find? row.familyId ≠ none
  unusedUnique : ∀ row ∈ m.world.tokens.rows, ∀ row' ∈ m.world.tokens.rows,
    row.familyId = row'.familyId → row.used = false → row'.used = false →
    row = row'
  slotEmpty : ∀ stage ∈ m.stages, ∀ row ∈ m.world.tokens.rows,
    Stage.slot stage = some row.familyId → row.used = true
  slotUnique : SlotsDistinct m.stages

/-- The calls of consumptions that have marked their tokens. -/
structure SpentOnce (calls : List RefreshCall) (m : Machine) : Prop where
  used : ∀ (i : Nat) (stage : Stage) (token : JsString),
    calls[i]? = some (.consume token) → m.stages[i]? = some stage →
    Stage.spends stage = true →
    ∃ row, m.world.tokens.find? (hashToken token) = some row ∧
      row.used = true
  unique : ∀ (i j : Nat) (stage stage' : Stage) (token : JsString),
    calls[i]? = some (.consume token) → calls[j]? = some (.consume token) →
    m.stages[i]? = some stage → m.stages[j]? = some stage' →
    Stage.spends stage = true → Stage.spends stage' = true → i = j

structure Sound (calls : List RefreshCall) (m : Machine) : Prop where
  belongs : ∀ (i : Nat) (call : RefreshCall) (stage : Stage),
    calls[i]? = some call → m.stages[i]? = some stage →
    Belongs hashToken call stage
  knows : ∀ stage ∈ m.stages, Knows m.world stage
  oneUnused : OneUnused m
  spentOnce : SpentOnce hashToken calls m

/-! ## What a turn changes -/

/-- No family is deleted, and no token row is deleted, moved to another family
or made unused. -/
structure Grows (w w' : RefreshWorld) : Prop where
  family : ∀ familyId, w.families.find? familyId ≠ none →
    w'.families.find? familyId ≠ none
  token : ∀ tokenHash row, w.tokens.find? tokenHash = some row →
    ∃ row', w'.tokens.find? tokenHash = some row' ∧
      row'.familyId = row.familyId ∧ (row.used = true → row'.used = true)

/-- The four kinds of turns, by what they do to the tokens and to the
families that wait for one. -/
inductive Effect (stage stage' : Stage) (w w' : RefreshWorld) : Prop where
  | quiet (hTokens : w'.tokens = w.tokens) (hSlot : Stage.slot stage' = none)
  | opens (familyId : JsString) (hTokens : w'.tokens = w.tokens)
      (hFresh : w.families.find? familyId = none)
      (hSlot : Stage.slot stage' = some familyId)
  | inserts (row : RefreshTokenRow)
      (hFresh : w.tokens.find? row.tokenHash = none)
      (hTokens : w'.tokens = w.tokens.put row)
      (hBefore : Stage.slot stage = some row.familyId)
      (hSlot : Stage.slot stage' = none)
  | marks (tokenHash : JsString) (entry : RefreshTokenRow)
      (family : RefreshTokenFamily)
      (hStage : stage = .rotating tokenHash entry family)
      (hTokens : w'.tokens = useToken tokenHash w.tokens)
      (hSlot : Stage.slot stage' = some entry.familyId)

private theorem grows_of_eq {w w' : RefreshWorld}
    (hFamilies : w'.families = w.families) (hTokens : w'.tokens = w.tokens) :
    Grows w w' where
  family _ h := hFamilies ▸ h
  token _ row h := ⟨row, hTokens ▸ h, rfl, id⟩

private theorem grows_mapFamilies {w : RefreshWorld} {families : FamilyTable}
    {f : RefreshTokenFamily → RefreshTokenFamily}
    (hFind : ∀ familyId, families.find? familyId =
      (w.families.find? familyId).map f) : Grows w (w.withFamilies families) where
  family familyId h := by
    simpa [hFind] using h
  token tokenHash row h := ⟨row, h, rfl, id⟩

private theorem grows_insertFamily (w : RefreshWorld)
    (row : RefreshTokenFamily) : Grows w (w.withFamilies
      (insertInto "refresh_token_families.family_id" w.families row).2) where
  family familyId h := by
    rcases insertInto_cases "refresh_token_families.family_id" w.families row
      with ⟨error, hInsert⟩ | ⟨hFresh, hInsert⟩
    · simpa [hInsert] using h
    · simp only [RefreshWorld.withFamilies_families, hInsert, Table.find?_put]
      split
      · simp
      · exact h
  token tokenHash row h := ⟨row, h, rfl, id⟩

private theorem grows_insertToken (w : RefreshWorld) (row : RefreshTokenRow) :
    Grows w (w.withTokens
      (insertInto "refresh_tokens.token_hash" w.tokens row).2) where
  family familyId h := h
  token tokenHash old h := by
    refine ⟨old, ?_, rfl, id⟩
    rcases insertInto_cases "refresh_tokens.token_hash" w.tokens row with
      ⟨error, hInsert⟩ | ⟨hFresh, hInsert⟩
    · simpa [hInsert] using h
    · have hNe : tokenHash ≠ row.tokenHash := by
        rintro rfl
        rw [hFresh] at h
        cases h
      simp only [RefreshWorld.withTokens_tokens, hInsert]
      exact (Table.find?_put_ne w.tokens hNe).trans h

private theorem grows_useToken (w : RefreshWorld) (used : JsString) :
    Grows w (w.withTokens (useToken used w.tokens)) where
  family familyId h := h
  token tokenHash row h := by
    refine ⟨_, (find?_useToken used w.tokens tokenHash).trans
      (congrArg _ h), ?_, ?_⟩
    · dsimp only
      split <;> rfl
    · intro hUsed
      dsimp only
      split
      · rfl
      · exact hUsed

theorem grows_advance (stage : Stage) (w : RefreshWorld) :
    Grows w (stage.advance hashToken runtime w).2 := by
  have hStay : Grows w w.later := grows_of_eq rfl rfl
  have hRevoke : ∀ selects, Grows w
      (w.withFamilies (revokeWhere selects w.families)) :=
    fun selects => grows_mapFamilies (find?_revokeWhere selects w.families)
  cases stage with
  | start call =>
      cases call with
      | create userId clientId ttlMs => exact hStay
      | consume token => exact hStay
      | revokeByToken token => exact hStay
      | revokeFamily familyId => exact hRevoke _
      | revokeByUser userId => exact hRevoke _
  | seeded seed family => exact grows_insertFamily w family
  | opened seed family => exact grows_insertToken w (firstTokenRow family)
  | found tokenHash entry => exact hStay
  | rejecting entry => exact hRevoke _
  | rotating tokenHash entry family => exact grows_useToken w tokenHash
  | replacing entry family newToken => exact grows_insertToken w _
  | closing entry newToken =>
      exact grows_mapFamilies (find?_setCurrent _ _ w.families)
  | revoking familyId => exact hRevoke _
  | ended result => exact grows_of_eq rfl rfl

theorem slot_checkEntry (tokenHash : JsString) (entry : RefreshTokenRow)
    (family : Option RefreshTokenFamily) (now : Int) :
    Stage.slot (checkEntry tokenHash entry family now) = none := by
  unfold checkEntry
  split
  · rfl
  · split_ifs <;> rfl

theorem effect_advance (stage : Stage) (w : RefreshWorld) :
    Effect stage (stage.advance hashToken runtime w).1 w
      (stage.advance hashToken runtime w).2 := by
  cases stage with
  | start call =>
      cases call with
      | create userId clientId ttlMs => exact .quiet rfl rfl
      | consume token =>
          refine .quiet rfl ?_
          simp only [Stage.advance]
          split <;> rfl
      | revokeByToken token =>
          refine .quiet rfl ?_
          simp only [Stage.advance]
          split <;> rfl
      | revokeFamily familyId => exact .quiet rfl rfl
      | revokeByUser userId => exact .quiet rfl rfl
  | seeded seed family =>
      simp only [Stage.advance]
      rcases insertInto_cases "refresh_token_families.family_id" w.families
        family with ⟨error, hInsert⟩ | ⟨hFresh, hInsert⟩
      · rw [hInsert]
        exact .quiet rfl rfl
      · rw [hInsert]
        exact .opens family.familyId rfl hFresh rfl
  | opened seed family =>
      simp only [Stage.advance]
      rcases insertInto_cases "refresh_tokens.token_hash" w.tokens
        (firstTokenRow family) with ⟨error, hInsert⟩ | ⟨hFresh, hInsert⟩
      · rw [hInsert]
        exact .quiet rfl rfl
      · rw [hInsert]
        exact .inserts (firstTokenRow family) hFresh rfl rfl rfl
  | found tokenHash entry => exact .quiet rfl (slot_checkEntry _ _ _ _)
  | rejecting entry => exact .quiet rfl rfl
  | rotating tokenHash entry family =>
      exact .marks tokenHash entry family rfl rfl rfl
  | replacing entry family newToken =>
      simp only [Stage.advance]
      rcases insertInto_cases "refresh_tokens.token_hash" w.tokens
        (successorRow entry family (hashToken newToken)) with
        ⟨error, hInsert⟩ | ⟨hFresh, hInsert⟩
      · rw [hInsert]
        exact .quiet rfl rfl
      · rw [hInsert]
        exact .inserts _ hFresh rfl rfl rfl
  | closing entry newToken => exact .quiet rfl rfl
  | revoking familyId => exact .quiet rfl rfl
  | ended result => exact .quiet rfl rfl

/-! ## One turn, one call -/

private theorem knows_of_grows {w w' : RefreshWorld} (hGrows : Grows w w')
    {stage : Stage} (h : Knows w stage) : Knows w' stage := by
  cases stage with
  | opened seed family => exact hGrows.family _ h
  | rejecting entry => exact hGrows.family _ h
  | replacing entry family newToken => exact hGrows.family _ h
  | found tokenHash entry =>
      obtain ⟨hFamily, row, hRow, hSame⟩ := h
      obtain ⟨row', hRow', hKeeps, _⟩ := hGrows.token _ _ hRow
      exact ⟨hGrows.family _ hFamily, row', hRow', hKeeps.trans hSame⟩
  | rotating tokenHash entry family =>
      obtain ⟨hFamily, row, hRow, hSame⟩ := h
      obtain ⟨row', hRow', hKeeps, _⟩ := hGrows.token _ _ hRow
      exact ⟨hGrows.family _ hFamily, row', hRow', hKeeps.trans hSame⟩
  | start _ | seeded _ _ | closing _ _ | revoking _ | ended _ => trivial

/-- A call goes on to a stage of its own. -/
theorem belongs_advance {call : RefreshCall} {stage : Stage}
    (h : Belongs hashToken call stage) (w : RefreshWorld) :
    Belongs hashToken call (stage.advance hashToken runtime w).1 := by
  cases stage with
  | start started =>
      obtain rfl : started = call := h
      cases started with
      | create userId clientId ttlMs => intro token hEq; cases hEq
      | consume token =>
          simp only [Stage.advance]
          split
          · trivial
          · exact ⟨token, rfl, rfl⟩
      | revokeByToken token =>
          simp only [Stage.advance]
          split
          · trivial
          · intro other hEq
            cases hEq
      | revokeFamily familyId => trivial
      | revokeByUser userId => trivial
  | seeded seed family =>
      simp only [Stage.advance, Stage.orThrow]
      split
      · exact h
      · trivial
  | opened seed family =>
      simp only [Stage.advance, Stage.orThrow]
      split <;> trivial
  | found tokenHash entry =>
      obtain ⟨token, hCall, hHash⟩ := h
      simp only [Stage.advance, checkEntry]
      split
      · trivial
      · split_ifs
        · trivial
        · trivial
        · exact ⟨token, hCall⟩
        · exact ⟨token, hCall, hHash⟩
  | rejecting entry => trivial
  | rotating tokenHash entry family =>
      obtain ⟨token, hCall, _⟩ := h
      exact ⟨token, hCall⟩
  | replacing entry family newToken =>
      simp only [Stage.advance, Stage.orThrow]
      split
      · exact h
      · trivial
  | closing entry newToken => trivial
  | revoking familyId => trivial
  | ended result => trivial

/-- A call knows at its next stage what it needs there. -/
theorem knows_advance {stage : Stage} {w : RefreshWorld}
    (hToken : ∀ row ∈ w.tokens.rows, w.families.find? row.familyId ≠ none)
    (h : Knows w stage) :
    Knows (stage.advance hashToken runtime w).2
      (stage.advance hashToken runtime w).1 := by
  cases stage with
  | start call =>
      cases call with
      | create userId clientId ttlMs => trivial
      | consume token =>
          simp only [Stage.advance]
          cases hRow : w.tokens.find? (hashToken token) with
          | none => trivial
          | some row =>
              exact ⟨hToken row (Table.mem_of_find? hRow), row, hRow, rfl⟩
      | revokeByToken token =>
          simp only [Stage.advance]
          split <;> trivial
      | revokeFamily familyId => trivial
      | revokeByUser userId => trivial
  | seeded seed family =>
      simp only [Stage.advance]
      rcases insertInto_cases "refresh_token_families.family_id" w.families
        family with ⟨error, hInsert⟩ | ⟨hFresh, hInsert⟩
      · rw [hInsert]
        trivial
      · rw [hInsert]
        simp [Stage.orThrow, Knows]
  | opened seed family =>
      simp only [Stage.advance, Stage.orThrow]
      split <;> trivial
  | found tokenHash entry =>
      simp only [Stage.advance, checkEntry]
      split
      · trivial
      · split_ifs
        · trivial
        · trivial
        · exact h.1
        · exact h
  | rejecting entry => trivial
  | rotating tokenHash entry family => exact h.1
  | replacing entry family newToken =>
      simp only [Stage.advance, Stage.orThrow]
      split <;> trivial
  | closing entry newToken => trivial
  | revoking familyId => trivial
  | ended result => trivial

/-- A consumption counts as spent from the turn at which it marks its token
on. -/
theorem spends_advance {token : JsString} {stage : Stage} {w : RefreshWorld}
    (hBelongs : Belongs hashToken (.consume token) stage)
    (h : Stage.spends (stage.advance hashToken runtime w).1 = true) :
    Stage.spends stage = true ∨
      ∃ entry family, stage = .rotating (hashToken token) entry family := by
  cases stage with
  | start started =>
      obtain rfl : started = .consume token := hBelongs
      simp only [Stage.advance] at h
      split at h <;> cases h
  | seeded seed family => exact absurd rfl (hBelongs token)
  | opened seed family => exact absurd rfl (hBelongs token)
  | found tokenHash entry =>
      simp only [Stage.advance, checkEntry] at h
      split at h
      · cases h
      · split_ifs at h <;> cases h
  | rejecting entry => cases h
  | rotating tokenHash entry family =>
      obtain ⟨other, hCall, rfl⟩ := hBelongs
      obtain rfl := RefreshCall.consume.inj hCall
      exact .inr ⟨entry, family, rfl⟩
  | replacing entry family newToken => exact .inl rfl
  | closing entry newToken => exact .inl rfl
  | revoking familyId => exact absurd rfl (hBelongs token)
  | ended result => exact .inl h

/-! ## One turn, all calls -/

/-- The machine after a turn of the call at `i`. -/
private abbrev turned (m : Machine) (i : Nat) (stage : Stage) : Machine :=
  ⟨m.stages.set i (stage.advance hashToken runtime m.world).1,
    (stage.advance hashToken runtime m.world).2⟩

private theorem mem_set_cases {stages : List Stage} {i : Nat}
    {stage stage' : Stage} (h : stage' ∈ stages.set i stage) :
    stage' = stage ∨ ∃ j, j ≠ i ∧ stages[j]? = some stage' := by
  obtain ⟨j, hGet⟩ := List.getElem?_of_mem h
  rcases getElem?_set_cases hGet with ⟨_, hSame⟩ | ⟨hNe, hGet⟩
  · exact .inl hSame
  · exact .inr ⟨j, hNe, hGet⟩

/-- The token a call marks next is still unused. -/
private theorem unused_of_turnAllowed {m : Machine} {i : Nat}
    {tokenHash : JsString} {entry : RefreshTokenRow}
    {family : RefreshTokenFamily}
    (hStage : m.stages[i]? = some (.rotating tokenHash entry family))
    (hAllowed : turnAllowed runtime m i = true) :
    ∃ row, m.world.tokens.find? tokenHash = some row ∧ row.used = false := by
  simpa [turnAllowed, hStage, Option.any_eq_true] using hAllowed

private theorem slotsDistinct_of_none {stages : List Stage} {i : Nat}
    {stage' : Stage} (h : SlotsDistinct stages)
    (hSlot : Stage.slot stage' = none) :
    SlotsDistinct (stages.set i stage') := by
  intro j k first second familyId hFirst hSecond hWaits hWaits'
  rcases getElem?_set_cases hFirst with ⟨_, rfl⟩ | ⟨_, hFirst⟩
  · rw [hSlot] at hWaits
    cases hWaits
  rcases getElem?_set_cases hSecond with ⟨_, rfl⟩ | ⟨_, hSecond⟩
  · rw [hSlot] at hWaits'
    cases hWaits'
  · exact h j k first second familyId hFirst hSecond hWaits hWaits'

private theorem slotsDistinct_of_fresh {stages : List Stage} {i : Nat}
    {stage' : Stage} {familyId : JsString} (h : SlotsDistinct stages)
    (hSlot : Stage.slot stage' = some familyId)
    (hOther : ∀ stage ∈ stages, Stage.slot stage ≠ some familyId) :
    SlotsDistinct (stages.set i stage') := by
  intro j k first second other hFirst hSecond hWaits hWaits'
  rcases getElem?_set_cases hFirst with ⟨hj, rfl⟩ | ⟨_, hFirst'⟩ <;>
    rcases getElem?_set_cases hSecond with ⟨hk, rfl⟩ | ⟨_, hSecond'⟩
  · rw [hj, hk]
  · rw [← hWaits, hSlot] at hWaits'
    exact absurd hWaits' (hOther second (List.mem_of_getElem? hSecond'))
  · rw [← hWaits', hSlot] at hWaits
    exact absurd hWaits (hOther first (List.mem_of_getElem? hFirst'))
  · exact h j k first second other hFirst' hSecond' hWaits hWaits'

private theorem family_of_slot {w : RefreshWorld} {stage : Stage}
    {familyId : JsString} (hKnows : Knows w stage)
    (hSlot : Stage.slot stage = some familyId) :
    w.families.find? familyId ≠ none := by
  cases stage with
  | opened seed family => exact Option.some.inj hSlot ▸ hKnows
  | replacing entry family newToken => exact Option.some.inj hSlot ▸ hKnows
  | _ => cases hSlot

/-- A turn that leaves the tokens alone and waits for none. -/
private theorem oneUnused_quiet {m : Machine} {i : Nat} {stage' : Stage}
    {w : RefreshWorld} (h : OneUnused m) (hGrows : Grows m.world w)
    (hTokens : w.tokens = m.world.tokens) (hSlot : Stage.slot stage' = none) :
    OneUnused ⟨m.stages.set i stage', w⟩ where
  tokenFamily row hRow := by
    rw [hTokens] at hRow
    exact hGrows.family _ (h.tokenFamily row hRow)
  unusedUnique := by
    simp only [hTokens]
    exact h.unusedUnique
  slotEmpty other hOther row hRow hWaits := by
    rw [hTokens] at hRow
    rcases mem_set_cases hOther with rfl | ⟨j, _, hGet⟩
    · rw [hSlot] at hWaits
      cases hWaits
    · exact h.slotEmpty other (List.mem_of_getElem? hGet) row hRow hWaits
  slotUnique := slotsDistinct_of_none h.slotUnique hSlot

/-- A turn that inserts a new family. -/
private theorem oneUnused_opens {m : Machine} {i : Nat} {stage' : Stage}
    {w : RefreshWorld} {familyId : JsString} (h : OneUnused m)
    (hKnows : ∀ stage ∈ m.stages, Knows m.world stage)
    (hGrows : Grows m.world w) (hTokens : w.tokens = m.world.tokens)
    (hFresh : m.world.families.find? familyId = none)
    (hSlot : Stage.slot stage' = some familyId) :
    OneUnused ⟨m.stages.set i stage', w⟩ where
  tokenFamily row hRow := by
    rw [hTokens] at hRow
    exact hGrows.family _ (h.tokenFamily row hRow)
  unusedUnique := by
    simp only [hTokens]
    exact h.unusedUnique
  slotEmpty other hOther row hRow hWaits := by
    rw [hTokens] at hRow
    rcases mem_set_cases hOther with rfl | ⟨j, _, hGet⟩
    · rw [hSlot] at hWaits
      rw [Option.some.inj hWaits] at hFresh
      exact absurd hFresh (h.tokenFamily row hRow)
    · exact h.slotEmpty other (List.mem_of_getElem? hGet) row hRow hWaits
  slotUnique := slotsDistinct_of_fresh h.slotUnique hSlot
    (fun stage hMem hSame =>
      family_of_slot (hKnows stage hMem) hSame hFresh)

/-- A turn that inserts the token its family waits for. -/
private theorem oneUnused_inserts {m : Machine} {i : Nat}
    {stage stage' : Stage} {w : RefreshWorld} {row : RefreshTokenRow}
    (h : OneUnused m) (hKnows : Knows m.world stage)
    (hStage : m.stages[i]? = some stage) (hGrows : Grows m.world w)
    (hFresh : m.world.tokens.find? row.tokenHash = none)
    (hTokens : w.tokens = m.world.tokens.put row)
    (hBefore : Stage.slot stage = some row.familyId)
    (hSlot : Stage.slot stage' = none) :
    OneUnused ⟨m.stages.set i stage', w⟩ where
  tokenFamily other hOther := by
    rw [hTokens, mem_put_of_none hFresh] at hOther
    refine hGrows.family _ ?_
    rcases hOther with hOther | rfl
    · exact h.tokenFamily other hOther
    · exact family_of_slot hKnows hBefore
  unusedUnique first hFirst second hSecond hSame hUnused hUnused' := by
    rw [hTokens, mem_put_of_none hFresh] at hFirst hSecond
    -- The other tokens of the family are used.
    have hUsed : ∀ other ∈ m.world.tokens.rows,
        other.familyId = row.familyId → other.used = true := by
      intro other hOther hFamily
      exact h.slotEmpty stage (List.mem_of_getElem? hStage) other hOther
        (hFamily ▸ hBefore)
    rcases hFirst with hFirst | rfl <;> rcases hSecond with hSecond | rfl
    · exact h.unusedUnique first hFirst second hSecond hSame hUnused hUnused'
    · rw [hUsed first hFirst hSame] at hUnused
      cases hUnused
    · rw [hUsed second hSecond hSame.symm] at hUnused'
      cases hUnused'
    · rfl
  slotEmpty other hOther token hToken hWaits := by
    rw [hTokens, mem_put_of_none hFresh] at hToken
    rcases mem_set_cases hOther with rfl | ⟨j, hNe, hGet⟩
    · rw [hSlot] at hWaits
      cases hWaits
    rcases hToken with hToken | rfl
    · exact h.slotEmpty other (List.mem_of_getElem? hGet) token hToken hWaits
    · exact absurd
        (h.slotUnique j i other stage _ hGet hStage hWaits hBefore) hNe
  slotUnique := slotsDistinct_of_none h.slotUnique hSlot

/-- A turn that marks a token which is still unused. -/
private theorem oneUnused_marks {m : Machine} {i : Nat} {stage' : Stage}
    {w : RefreshWorld} {row : RefreshTokenRow} (h : OneUnused m)
    (hGrows : Grows m.world w)
    (hRow : row ∈ m.world.tokens.rows) (hUnused : row.used = false)
    (hTokens : w.tokens = useToken row.tokenHash m.world.tokens)
    (hSlot : Stage.slot stage' = some row.familyId) :
    OneUnused ⟨m.stages.set i stage', w⟩ where
  tokenFamily other hOther := by
    rw [hTokens] at hOther
    obtain ⟨old, hOld, hSame⟩ := List.mem_map.mp hOther
    have hFamily : other.familyId = old.familyId := by
      rw [← hSame]
      split <;> rfl
    rw [hFamily]
    exact hGrows.family _ (h.tokenFamily old hOld)
  unusedUnique first hFirst second hSecond hSame hFirstUnused
      hSecondUnused := by
    rw [hTokens] at hFirst hSecond
    exact h.unusedUnique first (mem_of_mem_useToken hFirst hFirstUnused).1
      second (mem_of_mem_useToken hSecond hSecondUnused).1 hSame hFirstUnused
      hSecondUnused
  slotEmpty other hOther token hToken hWaits := by
    by_contra hNot
    have hTokenUnused : token.used = false := by simpa using hNot
    rw [hTokens] at hToken
    obtain ⟨hOld, hNe⟩ := mem_of_mem_useToken hToken hTokenUnused
    rcases mem_set_cases hOther with rfl | ⟨j, _, hGet⟩
    · -- The marked token was the unused one of the family.
      rw [hSlot] at hWaits
      have hSame := h.unusedUnique token hOld row hRow
        (Option.some.inj hWaits).symm hTokenUnused hUnused
      exact hNe (congrArg RefreshTokenRow.tokenHash hSame)
    · rw [h.slotEmpty other (List.mem_of_getElem? hGet) token hOld hWaits]
        at hTokenUnused
      cases hTokenUnused
  slotUnique := slotsDistinct_of_fresh h.slotUnique hSlot
    -- No other call waits for the family: its marked token was unused.
    (fun stage hMem hSame => by
      rw [h.slotEmpty stage hMem row hRow hSame] at hUnused
      cases hUnused)

private theorem oneUnused_turn {calls : List RefreshCall} {m : Machine}
    {i : Nat} {stage : Stage} (h : Sound hashToken calls m)
    (hStage : m.stages[i]? = some stage)
    (hAllowed : turnAllowed runtime m i = true) :
    OneUnused (turned hashToken runtime m i stage) := by
  have hGrows := grows_advance hashToken runtime stage m.world
  have hKnows := h.knows stage (List.mem_of_getElem? hStage)
  cases effect_advance hashToken runtime stage m.world with
  | quiet hTokens hSlot => exact oneUnused_quiet h.oneUnused hGrows hTokens hSlot
  | opens familyId hTokens hFresh hSlot =>
      exact oneUnused_opens h.oneUnused h.knows hGrows hTokens hFresh hSlot
  | inserts row hFresh hTokens hBefore hSlot =>
      exact oneUnused_inserts h.oneUnused hKnows hStage hGrows hFresh hTokens
        hBefore hSlot
  | marks tokenHash entry family hSame hTokens hSlot =>
      subst hSame
      obtain ⟨row, hRow, hUnused⟩ := unused_of_turnAllowed runtime hStage
        hAllowed
      obtain ⟨_, known, hKnown, hFamily⟩ := hKnows
      obtain rfl : row = known := Option.some.inj (hRow.symm.trans hKnown)
      obtain rfl : row.tokenHash = tokenHash := Table.key_of_find? hRow
      rw [← hFamily] at hSlot
      exact oneUnused_marks h.oneUnused hGrows (Table.mem_of_find? hRow)
        hUnused hTokens hSlot

private theorem spentOnce_turn {calls : List RefreshCall} {m : Machine}
    {i : Nat} {stage : Stage} (h : Sound hashToken calls m)
    (hStage : m.stages[i]? = some stage)
    (hAllowed : turnAllowed runtime m i = true) :
    SpentOnce hashToken calls (turned hashToken runtime m i stage) := by
  have hGrows := grows_advance hashToken runtime stage m.world
  have hOld : ∀ (j : Nat) (other : Stage) (token : JsString),
      calls[j]? = some (.consume token) → m.stages[j]? = some other →
      Stage.spends other = true →
      ∃ row, (stage.advance hashToken runtime m.world).2.tokens.find?
        (hashToken token) = some row ∧ row.used = true := by
    intro j other token hCall hOther hSpends
    obtain ⟨row, hRow, hUsed⟩ :=
      h.spentOnce.used j other token hCall hOther hSpends
    obtain ⟨row', hRow', _, hKeeps⟩ := hGrows.token _ _ hRow
    exact ⟨row', hRow', hKeeps hUsed⟩
  -- The turn that marks a token finds it unused.
  have hNew : ∀ token, calls[i]? = some (.consume token) →
      Stage.spends (stage.advance hashToken runtime m.world).1 = true →
      Stage.spends stage = true ∨
        ((∃ row, (stage.advance hashToken runtime m.world).2.tokens.find?
          (hashToken token) = some row ∧ row.used = true) ∧
        ∃ row, m.world.tokens.find? (hashToken token) = some row ∧
          row.used = false) := by
    intro token hCall hSpends
    rcases spends_advance hashToken runtime
      (h.belongs i _ stage hCall hStage) hSpends with
      hBefore | ⟨entry, family, hSame⟩
    · exact .inl hBefore
    · subst hSame
      obtain ⟨row, hRow, hUnused⟩ := unused_of_turnAllowed runtime hStage
        hAllowed
      refine .inr ⟨?_, row, hRow, hUnused⟩
      refine ⟨_, (find?_useToken _ _ _).trans (congrArg _ hRow), ?_⟩
      simp [Table.key_of_find? hRow]
  constructor
  · intro j other token hCall hOther hSpends
    rcases getElem?_set_cases hOther with ⟨rfl, rfl⟩ | ⟨_, hOther⟩
    · rcases hNew token hCall hSpends with hBefore | ⟨hUsed, _⟩
      · exact hOld j stage token hCall hStage hBefore
      · exact hUsed
    · exact hOld j other token hCall hOther hSpends
  · -- A second call that had marked the token would have left it used.
    have hClash : ∀ (j : Nat) (other : Stage) (token : JsString), j ≠ i →
        calls[i]? = some (.consume token) →
        calls[j]? = some (.consume token) → m.stages[j]? = some other →
        Stage.spends (stage.advance hashToken runtime m.world).1 = true →
        Stage.spends other = true → False := by
      intro j other token hNe hCall hCall' hOther hSpends hSpends'
      rcases hNew token hCall hSpends with hBefore | ⟨_, row, hRow, hUnused⟩
      · exact hNe (h.spentOnce.unique j i other stage token hCall' hCall
          hOther hStage hSpends' hBefore)
      · obtain ⟨row', hRow', hUsed⟩ :=
          h.spentOnce.used j other token hCall' hOther hSpends'
        obtain rfl : row = row' := Option.some.inj (hRow.symm.trans hRow')
        rw [hUnused] at hUsed
        cases hUsed
    intro j k first second token hCall hCall' hFirst hSecond hSpends hSpends'
    rcases getElem?_set_cases hFirst with ⟨hj, hEq⟩ | ⟨hj, hFirst'⟩ <;>
      rcases getElem?_set_cases hSecond with ⟨hk, hEq'⟩ | ⟨hk, hSecond'⟩
    · rw [hj, hk]
    · subst hj hEq
      exact (hClash k second token hk hCall hCall' hSecond' hSpends
        hSpends').elim
    · subst hk hEq'
      exact (hClash j first token hj hCall' hCall hFirst' hSpends'
        hSpends).elim
    · exact h.spentOnce.unique j k first second token hCall hCall' hFirst'
        hSecond' hSpends hSpends'

/-- **One allowed turn** keeps the invariant. -/
theorem sound_turn {calls : List RefreshCall} {m : Machine} {i : Nat}
    (h : Sound hashToken calls m) (hAllowed : turnAllowed runtime m i = true) :
    Sound hashToken calls (m.turn hashToken runtime i) := by
  unfold Machine.turn
  cases hStage : m.stages[i]? with
  | none => exact h
  | some stage =>
      have hGrows := grows_advance hashToken runtime stage m.world
      refine ⟨?_, ?_, oneUnused_turn hashToken runtime h hStage hAllowed,
        spentOnce_turn hashToken runtime h hStage hAllowed⟩
      · intro j call other hCall hOther
        rcases getElem?_set_cases hOther with ⟨rfl, rfl⟩ | ⟨_, hOther⟩
        · exact belongs_advance hashToken runtime
            (h.belongs j call stage hCall hStage) m.world
        · exact h.belongs j call other hCall hOther
      · intro other hOther
        rcases mem_set_cases hOther with rfl | ⟨j, _, hGet⟩
        · exact knows_advance hashToken runtime h.oneUnused.tokenFamily
            (h.knows stage (List.mem_of_getElem? hStage))
        · exact knows_of_grows hGrows
            (h.knows other (List.mem_of_getElem? hGet))

/-- **Undisturbed runs** keep the invariant. -/
theorem sound_run {calls : List RefreshCall} (schedule : List Nat)
    {m : Machine} (h : Sound hashToken calls m)
    (hUndisturbed : undisturbed hashToken runtime schedule m = true) :
    Sound hashToken calls (m.run hashToken runtime schedule) := by
  induction schedule generalizing m with
  | nil => exact h
  | cons i schedule ih =>
      simp only [undisturbed, Bool.and_eq_true] at hUndisturbed
      exact ih (sound_turn hashToken runtime h hUndisturbed.1) hUndisturbed.2

/-- The part of an undisturbed run before a turn, and the turn. -/
theorem undisturbed_append {early late : List Nat} {m : Machine}
    (h : undisturbed hashToken runtime (early ++ late) m = true) :
    undisturbed hashToken runtime early m = true ∧
      undisturbed hashToken runtime late
        (m.run hashToken runtime early) = true := by
  induction early generalizing m with
  | nil => exact ⟨rfl, h⟩
  | cons i early ih =>
      simp only [List.cons_append, undisturbed, Bool.and_eq_true] at h ⊢
      obtain ⟨hEarly, hLate⟩ := ih h.2
      exact ⟨⟨h.1, hEarly⟩, hLate⟩

/-! ## Dead families -/

/-- The family is revoked and no consumption of it is past its checks. -/
def Dead (familyId : JsString) (m : Machine) : Prop :=
  Revoked familyId m.world ∧
    ∀ stage ∈ m.stages, Stage.rotates stage ≠ some familyId

private theorem revoked_of_map {familyId : JsString} {w w' : RefreshWorld}
    {f : RefreshTokenFamily → RefreshTokenFamily}
    (hFind : w'.families.find? familyId =
      (w.families.find? familyId).map f)
    (hKeeps : ∀ family, family.revoked = true → (f family).revoked = true)
    (h : Revoked familyId w) : Revoked familyId w' := by
  obtain ⟨family, hFamily, hRevoked⟩ := h
  exact ⟨f family, hFind.trans (congrArg _ hFamily), hKeeps family hRevoked⟩

/-- A revoked family stays revoked. -/
theorem revoked_advance {familyId : JsString} (stage : Stage)
    {w : RefreshWorld} (h : Revoked familyId w) :
    Revoked familyId (stage.advance hashToken runtime w).2 := by
  have hRevoke : ∀ selects, Revoked familyId
      (w.withFamilies (revokeWhere selects w.families)) := by
    intro selects
    refine revoked_of_map (find?_revokeWhere selects w.families familyId)
      (fun family hFamily => ?_) h
    split
    · rfl
    · exact hFamily
  cases stage with
  | start call =>
      cases call with
      | create userId clientId ttlMs => exact h
      | consume token => exact h
      | revokeByToken token => exact h
      | revokeFamily other => exact hRevoke _
      | revokeByUser userId => exact hRevoke _
  | seeded seed row =>
      obtain ⟨family, hFamily, hRevoked⟩ := h
      refine ⟨family, ?_, hRevoked⟩
      simp only [Stage.advance]
      rcases insertInto_cases "refresh_token_families.family_id" w.families
        row with ⟨error, hInsert⟩ | ⟨hFresh, hInsert⟩
      · simpa [hInsert] using hFamily
      · have hNe : familyId ≠ row.familyId := by
          rintro rfl
          rw [hFresh] at hFamily
          cases hFamily
        simp only [hInsert, RefreshWorld.withFamilies_families]
        exact (Table.find?_put_ne w.families hNe).trans hFamily
  | opened seed family => exact h
  | found tokenHash entry => exact h
  | rejecting entry => exact hRevoke _
  | rotating tokenHash entry family => exact h
  | replacing entry family newToken => exact h
  | closing entry newToken =>
      refine revoked_of_map (find?_setCurrent _ _ w.families familyId)
        (fun family hFamily => ?_) h
      split <;> exact hFamily
  | revoking other => exact hRevoke _
  | ended result => exact h

/-- Only a family that is not revoked lets a consumption past its checks. -/
theorem rotates_advance {familyId : JsString} {stage : Stage}
    {w : RefreshWorld}
    (h : Stage.rotates (stage.advance hashToken runtime w).1 =
      some familyId) :
    Stage.rotates stage = some familyId ∨ ¬Revoked familyId w := by
  cases stage with
  | start call =>
      cases call <;> simp only [Stage.advance] at h <;> try cases h
      · split at h <;> cases h
      · split at h <;> cases h
  | seeded seed family =>
      simp only [Stage.advance, Stage.orThrow] at h
      split at h <;> cases h
  | opened seed family =>
      simp only [Stage.advance, Stage.orThrow] at h
      split at h <;> cases h
  | found tokenHash entry =>
      simp only [Stage.advance, checkEntry] at h
      split at h
      · cases h
      · rename_i family hFamily
        split_ifs at h with hRevoked
        · cases h
        · cases h
        · cases h
        · obtain rfl : entry.familyId = familyId := Option.some.inj h
          refine .inr ?_
          rintro ⟨family', hFamily', hRevoked'⟩
          rw [hFamily] at hFamily'
          cases hFamily'
          exact hRevoked hRevoked'
  | rejecting entry => cases h
  | rotating tokenHash entry family => exact .inl h
  | replacing entry family newToken =>
      simp only [Stage.advance, Stage.orThrow] at h
      split at h
      · exact .inl h
      · cases h
  | closing entry newToken => cases h
  | revoking other => cases h
  | ended result => cases h

theorem dead_turn {familyId : JsString} {m : Machine}
    (h : Dead familyId m) (i : Nat) :
    Dead familyId (m.turn hashToken runtime i) := by
  unfold Machine.turn
  cases hStage : m.stages[i]? with
  | none => exact h
  | some stage =>
      refine ⟨revoked_advance hashToken runtime stage h.1, ?_⟩
      intro other hOther hRotates
      rcases mem_set_cases hOther with rfl | ⟨j, _, hGet⟩
      · rcases rotates_advance hashToken runtime hRotates with
          hBefore | hLive
        · exact h.2 stage (List.mem_of_getElem? hStage) hBefore
        · exact hLive h.1
      · exact h.2 other (List.mem_of_getElem? hGet) hRotates

/-- A consumption that returns was past its checks before its last turn. -/
theorem consumed_advance {stage : Stage} {w : RefreshWorld}
    {result : RefreshConsumeResult}
    (h : (stage.advance hashToken runtime w).1 =
      .ended (.ok (.consumed result))) :
    stage = .ended (.ok (.consumed result)) ∨
      Stage.rotates stage = some result.familyId := by
  cases stage with
  | start call =>
      cases call <;> simp only [Stage.advance] at h <;> try cases h
      · split at h <;> cases h
      · split at h <;> cases h
  | seeded seed family =>
      simp only [Stage.advance, Stage.orThrow] at h
      split at h <;> cases h
  | opened seed family =>
      simp only [Stage.advance, Stage.orThrow] at h
      split at h <;> cases h
  | found tokenHash entry =>
      simp only [Stage.advance, checkEntry] at h
      split at h
      · cases h
      · split_ifs at h <;> cases h
  | rejecting entry => cases h
  | rotating tokenHash entry family => cases h
  | replacing entry family newToken =>
      simp only [Stage.advance, Stage.orThrow] at h
      split at h <;> cases h
  | closing entry newToken =>
      cases h
      exact .inr rfl
  | revoking other => cases h
  | ended ended => exact .inl h

/-- **No token of a dead family is consumed.** -/
theorem consumed_of_dead {familyId : JsString} (schedule : List Nat)
    {m : Machine} (h : Dead familyId m) {j : Nat}
    {result : RefreshConsumeResult} (hFamily : result.familyId = familyId)
    (hEnded : (m.run hashToken runtime schedule).stages[j]? =
      some (.ended (.ok (.consumed result)))) :
    m.stages[j]? = some (.ended (.ok (.consumed result))) := by
  induction schedule generalizing m with
  | nil => exact hEnded
  | cons i schedule ih =>
      have hAfter := ih (dead_turn hashToken runtime h i) hEnded
      unfold Machine.turn at hAfter
      cases hStage : m.stages[i]? with
      | none => simpa [hStage] using hAfter
      | some stage =>
          simp only [hStage] at hAfter
          rcases getElem?_set_cases hAfter with ⟨rfl, hEq⟩ | ⟨_, hAfter⟩
          · rcases consumed_advance hashToken runtime hEq.symm with
              rfl | hRotates
            · exact hStage
            · exact absurd (hFamily ▸ hRotates)
                (h.2 stage (List.mem_of_getElem? hStage))
          · exact hAfter

/-- A presentation of a used token ends with a dead family. -/
theorem dead_of_presented {m : Machine} {i : Nat} {stage : Stage}
    {entry : RefreshTokenRow} {error : JsError}
    (hKnows : Knows m.world stage) (hStage : m.stages[i]? = some stage)
    (hAllowed : turnAllowed runtime m i = true)
    (hPresents : Stage.presents stage = some entry)
    (hEnds : (stage.advance hashToken runtime m.world).1 =
      .ended (.error error)) :
    Dead entry.familyId (m.turn hashToken runtime i) := by
  have hTurn : m.turn hashToken runtime i =
      turned hashToken runtime m i stage := by
    simp only [Machine.turn, hStage]
  have hDead : Revoked entry.familyId
      (stage.advance hashToken runtime m.world).2 →
      noneRotates entry.familyId m = true →
      Dead entry.familyId (turned hashToken runtime m i stage) := by
    intro hRevoked hNone
    refine ⟨hRevoked, fun other hOther hRotates => ?_⟩
    rcases mem_set_cases hOther with rfl | ⟨j, _, hGet⟩
    · rw [hEnds] at hRotates
      cases hRotates
    · have hNot := List.all_eq_true.mp hNone other
        (List.mem_of_getElem? hGet)
      exact absurd hRotates (by simpa using hNot)
  rw [hTurn]
  cases stage with
  | found tokenHash found =>
      simp only [Stage.presents] at hPresents
      split at hPresents
      · rename_i hUsed
        obtain rfl := Option.some.inj hPresents
        obtain ⟨family, hFamily⟩ :=
          Option.ne_none_iff_exists'.mp hKnows.1
        simp only [turnAllowed, hStage, hUsed, if_true, hFamily] at hAllowed
        cases hRevoked : family.revoked with
        | true =>
            rw [hRevoked, if_pos rfl] at hAllowed
            exact hDead ⟨family, hFamily, hRevoked⟩ hAllowed
        | false =>
            -- A live token that was used goes on to the revocation.
            simp only [hRevoked, Bool.false_eq_true, if_false,
              Bool.not_eq_true', decide_eq_false_iff_not] at hAllowed
            simp [Stage.advance, checkEntry, hFamily, hRevoked, hAllowed,
              hUsed] at hEnds
      · cases hPresents
  | rejecting found =>
      obtain rfl := Option.some.inj hPresents
      obtain ⟨family, hFamily⟩ := Option.ne_none_iff_exists'.mp hKnows
      have hKey : family.familyId = found.familyId :=
        Table.key_of_find? hFamily
      simp only [turnAllowed, hStage] at hAllowed
      refine hDead ⟨{ family with revoked := true }, ?_, rfl⟩ hAllowed
      refine (find?_revokeWhere _ _ _).trans ?_
      simp [hFamily, hKey]
  | _ => cases hPresents

/-! ## The guarantee -/

/-- The database without rows. -/
def emptyWorld : RefreshWorld := ⟨Table.empty, Table.empty, 0⟩

/-- The calls at their start, by their stages. -/
def atStart (calls : List RefreshCall) : Machine :=
  ⟨calls.map Stage.start, emptyWorld⟩

/-- The stages after a schedule. -/
abbrev machineAfter (calls : List RefreshCall) (schedule : List Nat) :
    Machine :=
  (atStart calls).run hashToken runtime schedule

/-- The calls after a schedule. -/
abbrev poolAfter (calls : List RefreshCall) (schedule : List Nat) :
    RefreshPool :=
  run (refreshHandler runtime) schedule (inFlight hashToken calls emptyWorld)

/-- Each token is consumed at most once, a family that is not revoked has at
most one unused token, and a consumption that found its token used leaves the
family revoked when it ends, and no consumption of the family returns after
that. -/
structure RotationHolds (calls : List RefreshCall) (schedule : List Nat) :
    Prop where
  consumedOnce : ∀ (i j : Nat) (token : JsString) (a b : RefreshAnswer),
    calls[i]? = some (.consume token) → calls[j]? = some (.consume token) →
    (poolAfter hashToken runtime calls schedule).threads[i]? =
      some (done a) →
    (poolAfter hashToken runtime calls schedule).threads[j]? =
      some (done b) → i = j
  oneUnused :
    let w := (poolAfter hashToken runtime calls schedule).state
    ∀ row ∈ w.tokens.rows, ∀ row' ∈ w.tokens.rows,
      row.familyId = row'.familyId → row.used = false → row'.used = false →
      ¬Revoked row.familyId w → row = row'
  replayRevokes : ∀ (early late : List Nat) (i : Nat) (stage : Stage)
      (entry : RefreshTokenRow) (error : JsError),
    schedule = early ++ i :: late →
    (machineAfter hashToken runtime calls early).stages[i]? = some stage →
    Stage.presents stage = some entry →
    (poolAfter hashToken runtime calls (early ++ [i])).threads[i]? =
      some (fail error) →
    Revoked entry.familyId
        (poolAfter hashToken runtime calls (early ++ [i])).state ∧
      ∀ (j : Nat) (result : RefreshConsumeResult),
        result.familyId = entry.familyId →
        (poolAfter hashToken runtime calls schedule).threads[j]? =
          some (done (.consumed result)) →
        (poolAfter hashToken runtime calls (early ++ [i])).threads[j]? =
          some (done (.consumed result))

theorem pool_atStart (calls : List RefreshCall) :
    (atStart calls).pool hashToken = inFlight hashToken calls emptyWorld := by
  simp only [atStart, Machine.pool, inFlight, List.map_map]
  rfl

theorem poolAfter_eq (calls : List RefreshCall) (schedule : List Nat) :
    poolAfter hashToken runtime calls schedule =
      (machineAfter hashToken runtime calls schedule).pool hashToken := by
  rw [poolAfter, ← pool_atStart, run_pool]

private theorem stage_of_thread {m : Machine} {j : Nat}
    {thread : RefreshThread}
    (h : (m.pool hashToken).threads[j]? = some thread) :
    ∃ stage, m.stages[j]? = some stage ∧ stage.program hashToken = thread := by
  rw [Machine.pool, List.getElem?_map, Option.map_eq_some_iff] at h
  exact h

theorem stage_of_done {calls : List RefreshCall} {schedule : List Nat}
    {j : Nat} {answer : RefreshAnswer}
    (h : (poolAfter hashToken runtime calls schedule).threads[j]? =
      some (done answer)) :
    (machineAfter hashToken runtime calls schedule).stages[j]? =
      some (.ended (.ok answer)) := by
  rw [poolAfter_eq] at h
  obtain ⟨stage, hStage, hProgram⟩ := stage_of_thread hashToken h
  exact ended_of_program_done hashToken hProgram ▸ hStage

theorem sound_atStart (calls : List RefreshCall) :
    Sound hashToken calls (atStart calls) := by
  have hStart : ∀ (j : Nat) (stage : Stage),
      (atStart calls).stages[j]? = some stage →
      ∃ call, calls[j]? = some call ∧ stage = .start call := by
    intro j stage hStage
    rw [atStart, List.getElem?_map, Option.map_eq_some_iff] at hStage
    obtain ⟨call, hCall, rfl⟩ := hStage
    exact ⟨call, hCall, rfl⟩
  have hMem : ∀ stage ∈ (atStart calls).stages, ∃ call,
      stage = .start call := by
    intro stage hStage
    obtain ⟨call, _, rfl⟩ := List.mem_map.mp hStage
    exact ⟨call, rfl⟩
  constructor
  · intro j call stage hCall hStage
    obtain ⟨started, hStarted, rfl⟩ := hStart j stage hStage
    rw [hCall] at hStarted
    exact (Option.some.inj hStarted).symm
  · intro stage hStage
    obtain ⟨call, rfl⟩ := hMem stage hStage
    trivial
  · constructor
    · intro row hRow
      cases hRow
    · intro row hRow
      cases hRow
    · intro stage _ row hRow
      cases hRow
    · intro j k stage _ familyId hStage _ hSlot
      obtain ⟨_, _, rfl⟩ := hStart j stage hStage
      cases hSlot
  · constructor
    · intro j stage token _ hStage hSpends
      obtain ⟨_, _, rfl⟩ := hStart j stage hStage
      cases hSpends
    · intro j k stage _ token _ _ hStage _ hSpends
      obtain ⟨_, _, rfl⟩ := hStart j stage hStage
      cases hSpends

/-- **Rotation keeps one live token per family** in every undisturbed run of
any calls of the store. -/
theorem rotation_holds (calls : List RefreshCall) (schedule : List Nat)
    (h : undisturbed hashToken runtime schedule (atStart calls) = true) :
    RotationHolds hashToken runtime calls schedule := by
  have hSound := sound_run hashToken runtime schedule
    (sound_atStart hashToken calls) h
  refine ⟨?_, ?_, ?_⟩
  · intro i j token a b hCall hCall' hDone hDone'
    exact hSound.spentOnce.unique i j _ _ token hCall hCall'
      (stage_of_done hashToken runtime hDone)
      (stage_of_done hashToken runtime hDone') rfl rfl
  · rw [poolAfter_eq]
    intro w row hRow row' hRow' hSame hUnused hUnused' _
    exact hSound.oneUnused.unusedUnique row hRow row' hRow' hSame hUnused
      hUnused'
  · rintro early late i stage entry error rfl hStage hPresents hFail
    obtain ⟨hEarly, hLate⟩ := undisturbed_append hashToken runtime h
    simp only [undisturbed, Bool.and_eq_true] at hLate
    have hSoundEarly := sound_run hashToken runtime early
      (sound_atStart hashToken calls) hEarly
    have hTurn : machineAfter hashToken runtime calls (early ++ [i]) =
        (machineAfter hashToken runtime calls early).turn hashToken runtime
          i := run_append hashToken runtime early [i] _
    have hSplit : machineAfter hashToken runtime calls (early ++ i :: late) =
        (machineAfter hashToken runtime calls (early ++ [i])).run hashToken
          runtime late := by
      rw [hTurn]
      exact run_append hashToken runtime early (i :: late) _
    have hEnds : (stage.advance hashToken runtime
        (machineAfter hashToken runtime calls early).world).1 =
        .ended (.error error) := by
      rw [poolAfter_eq, hTurn] at hFail
      obtain ⟨after, hAfter, hProgram⟩ := stage_of_thread hashToken hFail
      simp only [Machine.turn, hStage] at hAfter
      rcases getElem?_set_cases hAfter with ⟨_, rfl⟩ | ⟨hNe, _⟩
      · exact ended_of_program_fail hashToken hProgram
      · exact absurd rfl hNe
    have hDead := dead_of_presented hashToken runtime
      (hSoundEarly.knows stage (List.mem_of_getElem? hStage)) hStage hLate.1
      hPresents hEnds
    rw [← hTurn] at hDead
    refine ⟨by rw [poolAfter_eq]; exact hDead.1, ?_⟩
    intro j result hFamily hDone
    have hEnded := stage_of_done hashToken runtime hDone
    rw [hSplit] at hEnded
    have hBefore := consumed_of_dead hashToken runtime late hDead hFamily
      hEnded
    rw [poolAfter_eq, Machine.pool, List.getElem?_map, hBefore]
    rfl

/-! ## Any run -/

/-- The family is revoked, and the call at `j` is not past its checks. -/
def Barred (familyId : JsString) (j : Nat) (m : Machine) : Prop :=
  Revoked familyId m.world ∧ ∀ stage, m.stages[j]? = some stage →
    Stage.rotates stage ≠ some familyId ∧
    ∀ result, stage = .ended (.ok (.consumed result)) →
      result.familyId ≠ familyId

theorem barred_turn {familyId : JsString} {j : Nat} {m : Machine}
    (h : Barred familyId j m) (i : Nat) :
    Barred familyId j (m.turn hashToken runtime i) := by
  unfold Machine.turn
  cases hStage : m.stages[i]? with
  | none => exact h
  | some stage =>
      refine ⟨revoked_advance hashToken runtime stage h.1,
        fun next hNext => ?_⟩
      rcases getElem?_set_cases hNext with ⟨rfl, rfl⟩ | ⟨_, hNext⟩
      · obtain ⟨hRotates, hReturned⟩ := h.2 stage hStage
        constructor
        · intro hNow
          rcases rotates_advance hashToken runtime hNow with hBefore | hLive
          · exact hRotates hBefore
          · exact hLive h.1
        · rintro result hEnds rfl
          rcases consumed_advance hashToken runtime hEnds with
            hBefore | hBefore
          · exact hReturned result hBefore rfl
          · exact hRotates hBefore
      · exact h.2 next hNext

theorem barred_run {familyId : JsString} {j : Nat} (schedule : List Nat)
    {m : Machine} (h : Barred familyId j m) :
    Barred familyId j (m.run hashToken runtime schedule) := by
  induction schedule generalizing m with
  | nil => exact h
  | cons i schedule ih => exact ih (barred_turn hashToken runtime h i)

/-- A call that had not begun when a family was revoked never returns a token
of it. -/
def RefusesRevoked (calls : List RefreshCall) (early late : List Nat) :
    Prop :=
  ∀ (j : Nat) (call : RefreshCall) (result : RefreshConsumeResult),
    (machineAfter hashToken runtime calls early).stages[j]? =
      some (.start call) →
    Revoked result.familyId
      (poolAfter hashToken runtime calls early).state →
    (poolAfter hashToken runtime calls (early ++ late)).threads[j]? ≠
      some (done (.consumed result))

/-- **Revocation is final in every run**, disturbed or not. -/
theorem refuses_revoked (calls : List RefreshCall) (early late : List Nat) :
    RefusesRevoked hashToken runtime calls early late := by
  intro j call result hStart hRevoked hDone
  have hStage := stage_of_done hashToken runtime hDone
  rw [poolAfter_eq] at hRevoked
  rw [machineAfter, RefreshMachine.run_append] at hStage
  have hBarred : Barred result.familyId j
      (machineAfter hashToken runtime calls early) := by
    refine ⟨hRevoked, fun stage hAt => ?_⟩
    rw [hStart] at hAt
    cases hAt
    exact ⟨nofun, nofun⟩
  exact ((barred_run hashToken runtime late hBarred).2 _ hStage).2 result
    rfl rfl

end Rotation

/-! ## Two consumptions of one token -/

/-- A clock that stands, and tokens named by the statement that draws
them. -/
def countedRuntime : RefreshRuntime where
  now _ := 0
  newToken n := [n.toUInt16]
  newFamilyId _ := js "family"

/-- A family, and two consumptions of its first token. -/
def twoConsumptions : List RefreshCall :=
  [.create (js "u@example.com") (js "app") none, .consume [0],
    .consume [0]]

/-- The theorem at work: a replay after the rotation. -/
theorem rotation_holds_replay :
    RotationHolds id countedRuntime twoConsumptions
      [0, 0, 0, 1, 1, 1, 1, 1, 2, 2, 2] :=
  rotation_holds id countedRuntime twoConsumptions _ (by decide)

/-- Two consumptions that read the token before either marks it both
return. -/
theorem not_rotationHolds_overlap :
    ¬RotationHolds id countedRuntime twoConsumptions
      [0, 0, 0, 1, 2, 1, 2, 1, 1, 1, 2, 2, 2] := by
  intro h
  have hBoth : ∃ a b, (poolAfter id countedRuntime twoConsumptions
      [0, 0, 0, 1, 2, 1, 2, 1, 1, 1, 2, 2, 2]).threads[1]? =
        some (done a) ∧
      (poolAfter id countedRuntime twoConsumptions
        [0, 0, 0, 1, 2, 1, 2, 1, 1, 1, 2, 2, 2]).threads[2]? =
        some (done b) := ⟨_, _, rfl, rfl⟩
  obtain ⟨a, b, hFirst, hSecond⟩ := hBoth
  have hSame := h.consumedOnce 1 2 [0] a b rfl rfl hFirst hSecond
  exact absurd hSame (by decide)

end OpenApe.Ports.RefreshRotation
