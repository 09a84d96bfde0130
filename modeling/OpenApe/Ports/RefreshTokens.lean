import OpenApe.Ports.GrantTypes
import OpenApe.Verified.KeyedTable
import OpenApe.Verified.Programs

/-!
# The refresh-token store
(`apps/openape-free-idp/server/utils/drizzle-refresh-token-store.ts`)

Every method is a program over the statements it awaits.  A reply is
delivered together with what the method reads before its next await: the
clock in milliseconds, a generated token or a generated family id.  The hash
of a token is a parameter.  `listFamilies`, which writes nothing, is modelled
on its own.
-/

namespace OpenApe.Ports.RefreshTokens

open Verified.JsText Verified.KeyedTable Verified.Programs
  Verified.Programs.Program
open GrantTypes

/-! ## Rows -/

structure RefreshTokenFamily where
  familyId : JsString
  userId : JsString
  clientId : JsString
  currentTokenHash : JsString
  createdAt : Int
  expiresAt : Int
  revoked : Bool
  deriving DecidableEq

structure RefreshTokenRow where
  tokenHash : JsString
  familyId : JsString
  userId : JsString
  clientId : JsString
  expiresAt : Int
  used : Bool
  deriving DecidableEq

structure RefreshTokenResult where
  token : JsString
  familyId : JsString
  deriving DecidableEq

structure RefreshConsumeResult where
  newToken : JsString
  userId : JsString
  clientId : JsString
  familyId : JsString
  deriving DecidableEq

/-! ## Statements -/

/-- What `create` reads before its first statement. -/
structure FamilySeed where
  token : JsString
  familyId : JsString
  now : Int
  deriving DecidableEq

inductive RefreshStatement where
  | drawFamily
  | insertFamily (row : RefreshTokenFamily)
  | insertToken (row : RefreshTokenRow)
  | selectToken (tokenHash : JsString)
  | selectFamily (familyId : JsString)
  | markUsed (tokenHash : JsString)
  | setCurrentToken (familyId tokenHash : JsString)
  | setRevoked (familyId : JsString)
  | setUserRevoked (userId : JsString)
  deriving DecidableEq

/-- The replies; `selectFamily` comes with the clock, and `markUsed` with the
token that is generated next. -/
@[reducible] def RefreshStatement.Reply : RefreshStatement → Type
  | drawFamily => FamilySeed
  | insertFamily _ => Unit
  | insertToken _ => Unit
  | selectToken _ => Option RefreshTokenRow
  | selectFamily _ => Option RefreshTokenFamily × Int
  | markUsed _ => JsString
  | setCurrentToken _ _ => Unit
  | setRevoked _ => Unit
  | setUserRevoked _ => Unit

@[reducible] def refreshDb : Interface :=
  ⟨RefreshStatement, RefreshStatement.Reply⟩

abbrev RefreshProgram := Program refreshDb JsError

def statement (call : RefreshStatement) : RefreshProgram call.Reply :=
  perform (I := refreshDb) call

/-! ## The methods -/

/-- `DEFAULT_REFRESH_TTL_MS` -/
def defaultRefreshTtlMs : Int := 30 * 24 * 60 * 60 * 1000

def invalidRefreshToken : JsError := plainError (js "Invalid refresh token")

def tokenFamilyRevoked : JsError := plainError (js "Token family revoked")

def refreshTokenExpired : JsError := plainError (js "Refresh token expired")

def reuseDetected : JsError :=
  plainError (js "Refresh token reuse detected — family revoked")

section Methods

variable (hashToken : JsString → JsString)

/-- The family row `create` inserts. -/
def familyRow (userId clientId : JsString) (ttlMs : Option Int)
    (seed : FamilySeed) : RefreshTokenFamily where
  familyId := seed.familyId
  userId := userId
  clientId := clientId
  currentTokenHash := hashToken seed.token
  createdAt := seed.now
  expiresAt := seed.now + ttlMs.getD defaultRefreshTtlMs
  revoked := false

/-- The first token row of a family. -/
def firstTokenRow (family : RefreshTokenFamily) : RefreshTokenRow where
  tokenHash := family.currentTokenHash
  familyId := family.familyId
  userId := family.userId
  clientId := family.clientId
  expiresAt := family.expiresAt
  used := false

def create (userId clientId : JsString) (ttlMs : Option Int) :
    RefreshProgram RefreshTokenResult := do
  let seed ← statement .drawFamily
  let family := familyRow hashToken userId clientId ttlMs seed
  statement (.insertFamily family)
  statement (.insertToken (firstTokenRow family))
  pure { token := seed.token, familyId := seed.familyId }

/-- The row of the token that replaces `entry`. -/
def successorRow (entry : RefreshTokenRow) (family : RefreshTokenFamily)
    (newHash : JsString) : RefreshTokenRow where
  tokenHash := newHash
  familyId := entry.familyId
  userId := entry.userId
  clientId := entry.clientId
  expiresAt := family.expiresAt
  used := false

/-- The writes of a consumption, after its checks. -/
def rotate (tokenHash : JsString) (entry : RefreshTokenRow)
    (family : RefreshTokenFamily) : RefreshProgram RefreshConsumeResult := do
  let newToken ← statement (.markUsed tokenHash)
  let newHash := hashToken newToken
  statement (.insertToken (successorRow entry family newHash))
  statement (.setCurrentToken entry.familyId newHash)
  pure
    { newToken := newToken
      userId := entry.userId
      clientId := entry.clientId
      familyId := entry.familyId }

/-- The answer to a token that was used before. -/
def rejectReuse (entry : RefreshTokenRow) :
    RefreshProgram RefreshConsumeResult := do
  statement (.setRevoked entry.familyId)
  fail reuseDetected

/-- The checks of a token row that was found. -/
def consumeEntry (tokenHash : JsString) (entry : RefreshTokenRow) :
    RefreshProgram RefreshConsumeResult := do
  let (family, now) ← statement (.selectFamily entry.familyId)
  match family with
  | none => fail tokenFamilyRevoked
  | some family =>
      if family.revoked then fail tokenFamilyRevoked
      else if entry.expiresAt < now then fail refreshTokenExpired
      else if entry.used then rejectReuse entry
      else rotate hashToken tokenHash entry family

def consume (token : JsString) : RefreshProgram RefreshConsumeResult := do
  let tokenHash := hashToken token
  match ← statement (.selectToken tokenHash) with
  | none => fail invalidRefreshToken
  | some entry => consumeEntry hashToken tokenHash entry

def revokeFamily (familyId : JsString) : RefreshProgram Unit :=
  statement (.setRevoked familyId)

def revokeByToken (token : JsString) : RefreshProgram Unit := do
  match ← statement (.selectToken (hashToken token)) with
  | none => pure ()
  | some entry => statement (.setRevoked entry.familyId)

def revokeByUser (userId : JsString) : RefreshProgram Unit :=
  statement (.setUserRevoked userId)

end Methods

/-! ## The database -/

abbrev FamilyTable := Table RefreshTokenFamily.familyId

abbrev TokenTable := Table RefreshTokenRow.tokenHash

/-- The tables, and how many statements were executed. -/
structure RefreshWorld where
  families : FamilyTable
  tokens : TokenTable
  moment : Nat

/-- The clock and the generators, at the n-th statement. -/
structure RefreshRuntime where
  now : Nat → Int
  newToken : Nat → JsString
  newFamilyId : Nat → JsString

/-- `INSERT` into a table, refused when the primary key is taken. -/
def insertInto {ρ : Type} {key : ρ → JsString} (name : String)
    (table : Table key) (row : ρ) : Except JsError Unit × Table key :=
  if (table.find? (key row)).isSome then
    (.error (plainError (js ("UNIQUE constraint failed: " ++ name))), table)
  else (.ok (), table.put row)

/-- `UPDATE refresh_token_families SET revoked = 1` on the rows that
`selects`. -/
def revokeWhere (selects : RefreshTokenFamily → Bool)
    (families : FamilyTable) : FamilyTable :=
  families.mapRows (fun family =>
    if selects family then { family with revoked := true } else family)
    (fun family => by split <;> rfl)

/-- `UPDATE refresh_tokens SET used = 1` on the row of a hash. -/
def useToken (tokenHash : JsString) (tokens : TokenTable) : TokenTable :=
  tokens.mapRows (fun row =>
    if row.tokenHash = tokenHash then { row with used := true } else row)
    (fun row => by split <;> rfl)

/-- `UPDATE refresh_token_families SET current_token_hash = …`. -/
def setCurrent (familyId tokenHash : JsString) (families : FamilyTable) :
    FamilyTable :=
  families.mapRows (fun family =>
    if family.familyId = familyId then
      { family with currentTokenHash := tokenHash }
    else family)
    (fun family => by split <;> rfl)

namespace RefreshWorld

/-- The world at the next statement. -/
def later (w : RefreshWorld) : RefreshWorld :=
  { w with moment := w.moment + 1 }

def withFamilies (w : RefreshWorld) (families : FamilyTable) : RefreshWorld :=
  { w.later with families := families }

def withTokens (w : RefreshWorld) (tokens : TokenTable) : RefreshWorld :=
  { w.later with tokens := tokens }

@[simp] theorem later_families (w : RefreshWorld) :
    w.later.families = w.families := rfl

@[simp] theorem later_tokens (w : RefreshWorld) :
    w.later.tokens = w.tokens := rfl

@[simp] theorem withFamilies_families (w : RefreshWorld)
    (families : FamilyTable) : (w.withFamilies families).families = families :=
  rfl

@[simp] theorem withFamilies_tokens (w : RefreshWorld)
    (families : FamilyTable) : (w.withFamilies families).tokens = w.tokens :=
  rfl

@[simp] theorem withTokens_families (w : RefreshWorld) (tokens : TokenTable) :
    (w.withTokens tokens).families = w.families := rfl

@[simp] theorem withTokens_tokens (w : RefreshWorld) (tokens : TokenTable) :
    (w.withTokens tokens).tokens = tokens := rfl

end RefreshWorld

/-! ## What the statements change -/

/-- An insert adds a row of a new key, or is refused. -/
theorem insertInto_cases {ρ : Type} {key : ρ → JsString} (name : String)
    (table : Table key) (row : ρ) :
    (∃ error, insertInto name table row = (.error error, table)) ∨
      (table.find? (key row) = none ∧
        insertInto name table row = (.ok (), table.put row)) := by
  unfold insertInto
  split
  · exact .inl ⟨_, rfl⟩
  · rename_i h
    exact .inr ⟨by simpa using h, rfl⟩

/-- A row of a new key is added at the end. -/
theorem mem_put_of_none {ρ : Type} {key : ρ → JsString} {table : Table key}
    {row : ρ} (h : table.find? (key row) = none) (other : ρ) :
    other ∈ (table.put row).rows ↔ other ∈ table.rows ∨ other = row := by
  simp [Table.put, h]

theorem find?_revokeWhere (selects : RefreshTokenFamily → Bool)
    (families : FamilyTable) (familyId : JsString) :
    (revokeWhere selects families).find? familyId =
      (families.find? familyId).map (fun family =>
        if selects family then { family with revoked := true }
        else family) :=
  Table.find?_mapRows _ _ _ _

theorem find?_setCurrent (current tokenHash : JsString)
    (families : FamilyTable) (familyId : JsString) :
    (setCurrent current tokenHash families).find? familyId =
      (families.find? familyId).map (fun family =>
        if family.familyId = current then
          { family with currentTokenHash := tokenHash }
        else family) :=
  Table.find?_mapRows _ _ _ _

theorem find?_useToken (used : JsString) (tokens : TokenTable)
    (tokenHash : JsString) :
    (useToken used tokens).find? tokenHash =
      (tokens.find? tokenHash).map (fun row =>
        if row.tokenHash = used then { row with used := true } else row) :=
  Table.find?_mapRows _ _ _ _

/-- A row that is unused after a mark was unused before, and is not the
marked one. -/
theorem mem_of_mem_useToken {used : JsString} {tokens : TokenTable}
    {row : RefreshTokenRow} (hMem : row ∈ (useToken used tokens).rows)
    (hUnused : row.used = false) :
    row ∈ tokens.rows ∧ row.tokenHash ≠ used := by
  obtain ⟨old, hOld, hRow⟩ := List.mem_map.mp hMem
  split at hRow
  · rw [← hRow] at hUnused
    cases hUnused
  · rename_i hNe
    rw [← hRow]
    exact ⟨hOld, hNe⟩

/-- Executes one statement. -/
def refreshHandler (runtime : RefreshRuntime) :
    Handler refreshDb JsError RefreshWorld :=
  fun call w =>
    match call with
    | .drawFamily =>
        (.ok
          { token := runtime.newToken w.moment
            familyId := runtime.newFamilyId w.moment
            now := runtime.now w.moment }, w.later)
    | .insertFamily row =>
        let (reply, families) :=
          insertInto "refresh_token_families.family_id" w.families row
        (reply, w.withFamilies families)
    | .insertToken row =>
        let (reply, tokens) :=
          insertInto "refresh_tokens.token_hash" w.tokens row
        (reply, w.withTokens tokens)
    | .selectToken tokenHash => (.ok (w.tokens.find? tokenHash), w.later)
    | .selectFamily familyId =>
        (.ok (w.families.find? familyId, runtime.now w.moment), w.later)
    | .markUsed tokenHash =>
        (.ok (runtime.newToken w.moment),
          w.withTokens (useToken tokenHash w.tokens))
    | .setCurrentToken familyId tokenHash =>
        (.ok (), w.withFamilies (setCurrent familyId tokenHash w.families))
    | .setRevoked familyId =>
        (.ok (), w.withFamilies (revokeWhere
          (fun family => family.familyId = familyId) w.families))
    | .setUserRevoked userId =>
        (.ok (), w.withFamilies (revokeWhere
          (fun family => family.userId = userId && !family.revoked)
          w.families))

end OpenApe.Ports.RefreshTokens
