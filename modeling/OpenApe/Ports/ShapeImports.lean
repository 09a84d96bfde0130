import OpenApe.Ports.ShapeTiers
import OpenApe.Verified.KeyedTable
import OpenApe.Verified.SerialQueue

/-!
# Writing shapes (`shape-tiers.ts`, `shape-registry.ts`)

`importShapes`, `publishTierShape` and `removeTierShape` over the shape store
of `createInMemoryShapeStore`.  A write reads its tier, plans what it saves
and removes, and applies it with its audit entries in one call of the store;
writes run one at a time.

What a write reads of grants and users changes only its report, so it is a
reply of the environment that may be anything and may fail.  The texts of an
approval card, which adapters carry beside their operations and which only
the comparison of two IdP-wide shapes reads, are a parameter.
-/

namespace OpenApe.Ports.ShapeImports

open Verified.JsText Verified.Json Verified.KeyedTable Verified.Programs
  Verified.Programs.Program
open GrantTypes
open ShapeMatcher (isDigit)
open ShapeToml (TomlParser)
open ShapeTiers

/-! ## The store -/

/-- A stored shape: with the approval cards of its operations, and who last
wrote it where it is a domain's. -/
structure StoredShape (π : Type) extends ServerShape where
  cards : π
  publishedBy : Option JsString := none
  deriving DecidableEq

/-- A tier by its scope and key: the IdP-wide one has the empty key. -/
structure TierRef where
  scope : ShapeTier
  key : JsString
  instanceKey : scope = .instanceTier → key = []
  deriving DecidableEq

/-- Who writes a tier. -/
structure ShapeWriter extends TierRef where
  actor : JsString

/-- What the writer says a batch comes from. -/
structure ImportSource where
  repo : Option JsString := none
  commit : Option JsString := none
  dirty : Option Bool := none
  deriving DecidableEq

inductive ChangeAction where
  | add
  | update
  | remove
  deriving DecidableEq

/-- An audit entry. -/
structure ShapeChange where
  scope : ShapeTier
  scopeKey : JsString
  action : ChangeAction
  cliId : JsString
  previousDigest : Option JsString
  digest : Option JsString
  previousToml : Option JsString
  toml : Option JsString
  source : Option ImportSource
  actor : JsString
  createdAt : Int
  deriving DecidableEq

structure ShapeChangeBatch (π : Type) where
  tier : TierRef
  save : List (StoredShape π)
  remove : List JsString
  changes : List ShapeChange

abbrev Shapes (π : Type) :=
  Table (fun shape : StoredShape π => shape.cliId)

/-- The maps of `createInMemoryShapeStore()`; a key without a map reads as
one without shapes. -/
structure ShapeStore (π : Type) where
  map : Shapes π
  domains : JsString → Shapes π
  owned : JsString → Shapes π
  audit : List ShapeChange

namespace ShapeStore

variable {π : Type}

def empty : ShapeStore π :=
  ⟨Table.empty, fun _ => Table.empty, fun _ => Table.empty, []⟩

def tierMap (store : ShapeStore π) (tier : TierRef) : Shapes π :=
  match tier.scope with
  | .instanceTier => store.map
  | .domain => store.domains tier.key
  | .personal => store.owned tier.key

def setTierMap (store : ShapeStore π) (tier : TierRef) (shapes : Shapes π) :
    ShapeStore π :=
  match tier.scope with
  | .instanceTier => { store with map := shapes }
  | .domain =>
      { store with domains := Function.update store.domains tier.key shapes }
  | .personal =>
      { store with owned := Function.update store.owned tier.key shapes }

/-- The shape as a tier's map keeps it. -/
def kept (tier : TierRef) (shape : StoredShape π) : StoredShape π :=
  match tier.scope with
  | .instanceTier => shape
  | .domain => { shape with source := .custom, domain := some tier.key }
  | .personal => { shape with source := .custom, owner := some tier.key }

def applyShapeChanges (store : ShapeStore π) (batch : ShapeChangeBatch π) :
    ShapeStore π :=
  let shapes := batch.remove.foldl Table.remove (store.tierMap batch.tier)
  let shapes := batch.save.foldl
    (fun shapes shape => shapes.put (kept batch.tier shape)) shapes
  let written := store.setTierMap batch.tier shapes
  { written with audit := written.audit ++ batch.changes }

/-- The audit entries of one shape, oldest first. -/
def entries (store : ShapeStore π) (tier : TierRef) (cliId : JsString) :
    List ShapeChange :=
  store.audit.filter (fun change =>
    change.scope = tier.scope ∧ change.scopeKey = tier.key ∧
      change.cliId = cliId)

/-- `listShapeChanges` of one shape: newest first. -/
def listShapeChanges (store : ShapeStore π) (tier : TierRef) (limit : Nat)
    (cliId : JsString) : List ShapeChange :=
  (store.entries tier cliId).reverse.take limit

/-- `listShapes`, `listDomainShapes` and `listOwnerShapes` -/
def listTier [Collation] (store : ShapeStore π) (tier : TierRef) :
    List (StoredShape π) :=
  (store.tierMap tier).rows.insertionSort
    (fun a b => Collation.localeCompare a.cliId b.cliId ≠ .gt)

end ShapeStore

/-- The IdP-wide tier. -/
def instanceTier : TierRef := ⟨.instanceTier, [], fun _ => rfl⟩

/-! ## The request -/

structure ImportItem where
  toml : Option JsonValue
  description : Option JsonValue

structure ImportBody where
  shapes : List ImportItem
  prune : Bool
  source : Option ImportSource

/-- `value && typeof value === 'object'`: the own members, where an array
has its indices. -/
def ownMembers (value : JsonValue) : Option (List (JsString × JsonValue)) :=
  match value with
  | .object members => some members
  | .array items =>
      some ((items.zipIdx).map (fun item => (js (toString item.2), item.1)))
  | _ => none

/-- A text of at most `limit` units. -/
def boundedText (limit : Nat) (value : JsonValue) : Bool :=
  match value with
  | .string text => decide (text.length ≤ limit)
  | _ => false

/-- `/^[0-9a-f]{7,64}$/` -/
def isCommit (text : JsString) : Bool :=
  decide (7 ≤ text.length ∧ text.length ≤ 64) &&
    text.all (fun u => isDigit u || (97 ≤ u && u ≤ 102))

def isCommitValue (value : JsonValue) : Bool :=
  match value with
  | .string text => isCommit text
  | _ => false

def isBool (value : JsonValue) : Bool :=
  match value with
  | .bool _ => true
  | _ => false

/-- The claimed source of a batch; empty texts are left out. -/
def readSource (source : JsonValue) : Except JsError ImportSource :=
  match source with
  | .object members =>
      let field (key : String) := source.field? (js key)
      if members.any (fun m => m.1 ∉ [js "repo", js "commit", js "dirty"]) ||
          (field "repo").any (fun v => !boundedText 500 v) ||
          (field "commit").any (fun v => !isCommitValue v) ||
          (field "dirty").any (fun v => !isBool v) then
        .error (problem (js ("source may only name repo (string), " ++
          "commit (hex) and dirty (boolean)")))
      else .ok
        { repo := ((field "repo").bind JsonValue.text?).filter (· ≠ [])
          commit := ((field "commit").bind JsonValue.text?).filter (· ≠ [])
          dirty := match field "dirty" with
            | some (.bool dirty) => some dirty
            | _ => none }
  | _ => .error (problem (js "source must be an object"))

def readImportItem (item : JsonValue) : Except JsError ImportItem :=
  match ownMembers item with
  | none => .error (problem
      (js "Each shape must be \x7b\"toml\": \"<adapter.toml content>\"\x7d"))
  | some _ => .ok ⟨item.field? (js "toml"), item.field? (js "description")⟩

def importKeys : List JsString := [js "shapes", js "prune", js "source"]

def checkKeys (body : JsonValue) : Except JsError Unit :=
  match ((ownMembers body).getD []).find? (fun m => m.1 ∉ importKeys) with
  | some unknown => .error (problem (js "Unknown field " ++ unknown.1))
  | none => .ok ()

/-- `body.shapes`, which must not be empty. -/
def readItems (body : JsonValue) : Except JsError (List JsonValue) :=
  match body.field? (js "shapes") with
  | some (.array (item :: items)) => .ok (item :: items)
  | _ => .error (problem (js ("Body must be \x7b\"shapes\": " ++
      "[\x7b\"toml\": \"<adapter.toml>\"\x7d], \"prune\"?: boolean, " ++
      "\"source\"?: \x7b...\x7d\x7d")))

def readPrune (body : JsonValue) : Except JsError Bool :=
  match body.field? (js "prune") with
  | none => .ok false
  | some (.bool prune) => .ok prune
  | some _ => .error (problem (js "prune must be a boolean"))

def readBodySource (body : JsonValue) :
    Except JsError (Option ImportSource) :=
  match body.field? (js "source") with
  | none => .ok none
  | some source => (readSource source).map some

def readImportBody (body : JsonValue) : Except JsError ImportBody := do
  checkKeys body
  let items ← readItems body
  let prune ← readPrune body
  let source ← readBodySource body
  let shapes ← items.mapM readImportItem
  pure ⟨shapes, prune, source⟩

/-! ## Planning a write -/

/-- `SHAPE_LIMITS.perScope` -/
def perScope : ShapeTier → Nat
  | .instanceTier => 500
  | .domain => 100
  | .personal => 50

section Names

variable {π : Type}

def names (shape : StoredShape π) : List JsString :=
  [shape.cliId, shape.executable]

def shares (a b : StoredShape π) : Bool :=
  (names a).any (fun name => (names b).contains name)

/-- What an import compares to decide whether a shape changed. -/
inductive ShapeContent (π : Type) where
  | instanceTier (cliId executable description : JsString)
      (operations : List OpenApe.Ports.ShapeMatcher.ShapeMatchOperation)
      (cards : π)
      (versions : Option OpenApe.Ports.ShapeDigest.ShapeCliVersions)
      (testedDigests : Option (List JsString)) (isVirtual : Bool)
  | upperTier (cliId executable description : JsString)
      (toml : Option JsString)
  deriving DecidableEq

def content (scope : ShapeTier) (shape : StoredShape π) : ShapeContent π :=
  if scope = .instanceTier then
    .instanceTier shape.cliId shape.executable shape.description
      shape.operations shape.cards shape.versions shape.testedDigests
      (shape.isVirtual == some true)
  else
    .upperTier shape.cliId shape.executable shape.description shape.toml

end Names

/-- What an import reports of its batch. -/
structure ShapeImportReport where
  scope : ShapeTier
  scopeKey : Option JsString
  dryRun : Bool
  saved : Bool
  added : List JsString
  rulesChanged : List JsString
  textChanged : List JsString
  removed : List JsString
  unchanged : List JsString
  deriving DecidableEq

/-- How an incoming shape compares to the stored one. -/
inductive Comparison where
  | added
  | rulesChanged
  | textChanged
  | unchanged
  deriving DecidableEq

section Planning

variable {π : Type} [DecidableEq π] [Collation] (parser : TomlParser)
  (hash : JsString → JsString) (cardsOf : JsString → π)

/-- `parseTierShape` on the values of a batch member. -/
def parseItem (scope : ShapeTier) (item : ImportItem) :
    Except JsError (StoredShape π) := do
  let toml := item.toml.bind JsonValue.text?
  let description := match item.description with
    | none | some .null => some []
    | some description => description.text?
  let shape ← parseTierShape parser hash scope toml description
  pure { shape with cards := cardsOf (toml.getD []) }

def batchStatus (error : JsError) : Nat :=
  match error.kind with
  | .http status => status
  | _ => 400

/-- A batch member, or a refusal naming its position. -/
def parseBatchShape (scope : ShapeTier) (item : ImportItem) (index : Nat) :
    Except JsError (StoredShape π) :=
  match parseItem parser hash cardsOf scope item with
  | .ok shape => .ok shape
  | .error error =>
      .error (problem (js "Shape " ++ js (toString (index + 1)) ++ js ": " ++
        error.message ++ js "; nothing was imported") (batchStatus error))

def parseBatch (scope : ShapeTier) (items : List ImportItem) :
    Except JsError (List (StoredShape π)) :=
  items.zipIdx.mapM (fun item =>
    parseBatchShape parser hash cardsOf scope item.1 item.2)

omit [DecidableEq π] [Collation] in
/-- Refuses two shapes of one program, after those that came `before`. -/
def checkTwins (before : List (StoredShape π)) :
    List (StoredShape π) → Except JsError Unit
  | [] => .ok ()
  | shape :: shapes =>
      match before.find? (fun other => shares other shape) with
      | some twin => .error (problem (shape.cliId ++ js " and " ++
          twin.cliId ++ js " describe the same program; nothing was imported")
          409)
      | none => checkTwins (before ++ [shape]) shapes

/-- A shape sent without a description keeps the stored one. -/
def keepDescription (scope : ShapeTier) (existing : List (StoredShape π))
    (item : ImportItem) (shape : StoredShape π) : StoredShape π :=
  match existing.find? (fun other => other.cliId = shape.cliId) with
  | some previous =>
      if item.description.isNone && scope ≠ .personal then
        { shape with description := previous.description }
      else shape
  | none => shape

def compareShape (scope : ShapeTier) (previous : Option (StoredShape π))
    (shape : StoredShape π) : Comparison :=
  match previous with
  | none => .added
  | some previous =>
      if previous.digest ≠ shape.digest then .rulesChanged
      else if content scope previous ≠ content scope shape then .textChanged
      else .unchanged

/-- What an import will save and remove. -/
structure Plan (π : Type) where
  incoming : List (StoredShape π)
  existing : List (StoredShape π)
  save : List (StoredShape π)
  removed : List (StoredShape π)
  report : ShapeImportReport

/-- Refuses incoming shapes that share a name with a shape that stays. -/
def checkClashes (scope : ShapeTier) (kept : List (StoredShape π)) :
    List (StoredShape π) → Except JsError Unit
  | [] => .ok ()
  | shape :: shapes =>
      match kept.find? (fun other => shares other shape) with
      | some clash => .error (problem (js "The " ++ tierText scope ++
          js " shape " ++ clash.cliId ++ js " already describes " ++
          shape.executable ++ js "; remove it (or import with prune) before " ++
          js "importing " ++ shape.cliId) 409)
      | none => checkClashes scope kept shapes

/-- The shapes of the tier that the batch does not name. -/
def unnamed (incoming existing : List (StoredShape π)) :
    List (StoredShape π) :=
  existing.filter (fun shape => shape.cliId ∉ incoming.map (·.cliId))

/-- The shapes that an import removes. -/
def pruned (prune : Bool) (incoming existing : List (StoredShape π)) :
    List (StoredShape π) :=
  if prune then unnamed incoming existing else []

/-- The shapes that stay beside the batch. -/
def staying (prune : Bool) (incoming existing : List (StoredShape π)) :
    List (StoredShape π) :=
  if prune then [] else unnamed incoming existing

/-- Refuses to prune an operation of the Pods desktop. -/
def checkPrune (removed : List (StoredShape π)) : Except JsError Unit :=
  match removed.find? (fun shape => shape.cliId ∈ desktopOwnShapeIds) with
  | some desktop => .error (problem (js "Prune would remove " ++
      desktop.cliId ++
      js ", an operation of the Pods desktop; nothing was imported") 409)
  | none => .ok ()

def checkLimit (scope : ShapeTier) (size : Nat) : Except JsError Unit :=
  if size > perScope scope then
    .error (problem (js "The " ++ tierText scope ++
      js " tier holds at most " ++ js (toString (perScope scope)) ++
      js " shapes") 409)
  else .ok ()

/-- The checks of a batch against its tier. -/
def checkBatch (scope : ShapeTier) (prune : Bool)
    (incoming existing : List (StoredShape π)) : Except JsError Unit := do
  checkPrune (pruned prune incoming existing)
  checkClashes scope (staying prune incoming existing) incoming
  checkLimit scope
    ((staying prune incoming existing).length + incoming.length)

/-- The shape that is saved in the place of the stored one. -/
def savedShape (writer : ShapeWriter) (now : Int)
    (previous : Option (StoredShape π)) (shape : StoredShape π) :
    StoredShape π :=
  { shape with
    publishedBy := if writer.scope = .domain then some writer.actor
      else shape.publishedBy
    createdAt := (previous.map (·.createdAt)).getD now
    updatedAt := now }

def previousOf (existing : List (StoredShape π)) (cliId : JsString) :
    Option (StoredShape π) :=
  existing.find? (fun shape => shape.cliId = cliId)

/-- What is saved and reported of a batch that passed its checks. -/
def planBatch (writer : ShapeWriter) (dryRun prune : Bool) (now : Int)
    (incoming existing : List (StoredShape π)) : Plan π :=
  let removed := pruned prune incoming existing
  let compared (shape : StoredShape π) : Comparison :=
    compareShape writer.scope (previousOf existing shape.cliId) shape
  let listed (result : Comparison) : List JsString :=
    (incoming.filter (fun shape => compared shape = result)).map (·.cliId)
  { incoming := incoming
    existing := existing
    save := (incoming.filter (fun shape => compared shape ≠ .unchanged)).map
      (fun shape =>
        savedShape writer now (previousOf existing shape.cliId) shape)
    removed := removed
    report :=
      { scope := writer.scope
        scopeKey := if writer.key = [] then none else some writer.key
        dryRun := dryRun
        saved := false
        added := listed .added
        rulesChanged := listed .rulesChanged
        textChanged := listed .textChanged
        removed := removed.map (·.cliId)
        unchanged := listed .unchanged } }

/-- An audit entry for what becomes of one shape. -/
def change (writer : ShapeWriter) (source : Option ImportSource) (now : Int)
    (previousToml : List (JsString × JsString)) (action : ChangeAction)
    (previous next : Option (StoredShape π)) : ShapeChange where
  scope := writer.scope
  scopeKey := writer.key
  action := action
  cliId := ((next <|> previous).map (·.cliId)).getD []
  previousDigest := previous.map (·.digest)
  digest := next.map (·.digest)
  previousToml := previous.bind (fun previous =>
    previous.toml <|> previousToml.lookup previous.cliId)
  toml := next.bind (·.toml)
  source := source
  actor := writer.actor
  createdAt := now

def planChanges (writer : ShapeWriter) (source : Option ImportSource)
    (now : Int) (previousToml : List (JsString × JsString)) (plan : Plan π) :
    List ShapeChange :=
  let previous (cliId : JsString) := previousOf plan.existing cliId
  plan.save.map (fun shape =>
      change writer source now previousToml
        (if (previous shape.cliId).isSome then .update else .add)
        (previous shape.cliId) (some shape)) ++
    plan.removed.map (fun shape =>
      change writer source now previousToml .remove (some shape) none)

end Planning

/-! ## The calls -/

/-- What the writes ask of the store, the clock and the other stores.  `γ`
is what they read about grants. -/
inductive ShapeCall (π : Type) where
  | listTier (tier : TierRef)
  | listShapeChanges (tier : TierRef) (limit : Nat) (cliId : JsString)
  | applyShapeChanges (batch : ShapeChangeBatch π)
  | now
  | describeImpact (writer : ShapeWriter) (report : ShapeImportReport)
      (incoming existing : List (StoredShape π))
  | scopeGrants (writer : ShapeWriter)

@[reducible] def ShapeCall.Reply {π : Type} (γ : Type) : ShapeCall π → Type
  | listTier _ => List (StoredShape π)
  | listShapeChanges _ _ _ => List ShapeChange
  | applyShapeChanges _ => Unit
  | now => Int
  | describeImpact _ _ _ _ => γ
  | scopeGrants _ => γ

@[reducible] def shapeInterface (π γ : Type) : Interface :=
  ⟨ShapeCall π, ShapeCall.Reply γ⟩

/-- A function of the shape tiers. -/
abbrev ShapeProgram (π γ : Type) := Program (shapeInterface π γ) JsError

/-- The store, and what the clock and the other stores will answer.  A call
of the store may fail; it has then done nothing. -/
structure ShapeWorld (π γ : Type) where
  store : ShapeStore π
  clock : Nat → Int
  grants : Nat → Except JsError γ
  faults : Nat → Option JsError

/-- A call of the store that answers and writes, unless it fails. -/
def ShapeWorld.attempt {π γ β : Type} (w : ShapeWorld π γ) (reply : β)
    (store : ShapeStore π) : Except JsError β × ShapeWorld π γ :=
  let faults := fun n => w.faults (n + 1)
  match w.faults 0 with
  | some error => (.error error, { w with faults := faults })
  | none => (.ok reply, { w with faults := faults, store := store })

/-- Each call is atomic; only one of them writes. -/
def shapeHandler {π γ : Type} [Collation] :
    Program.Handler (shapeInterface π γ) JsError (ShapeWorld π γ) :=
  fun call w =>
    match call with
    | .listTier tier => w.attempt (w.store.listTier tier) w.store
    | .listShapeChanges tier limit cliId =>
        w.attempt (w.store.listShapeChanges tier limit cliId) w.store
    | .applyShapeChanges batch =>
        w.attempt () (w.store.applyShapeChanges batch)
    | .now => (.ok (w.clock 0), { w with clock := fun n => w.clock (n + 1) })
    | .describeImpact _ _ _ _ | .scopeGrants _ =>
        (w.grants 0, { w with grants := fun n => w.grants (n + 1) })

section Writes

variable {π γ : Type} [DecidableEq π] [Collation] (parser : TomlParser)
  (hash : JsString → JsString) (cardsOf : JsString → π)

/-- The last imported texts of IdP-wide shapes, whose rows keep none. -/
def lastInstanceToml :
    List JsString → ShapeProgram π γ (List (JsString × JsString))
  | [] => pure []
  | cliId :: cliIds => do
      let changes ← perform (I := shapeInterface π γ)
        (.listShapeChanges instanceTier 1 cliId)
      let rest ← lastInstanceToml cliIds
      match changes.head?.bind ShapeChange.toml with
      | some toml => pure ((cliId, toml) :: rest)
      | none => pure rest

/-- The texts of the rows before a write, where the rows keep none. -/
def previousTexts (textless : Bool) (cliIds : List JsString) :
    ShapeProgram π γ (List (JsString × JsString)) :=
  if textless then lastInstanceToml cliIds else pure []

/-- An import's report with what it read. -/
structure ImportOutcome (π γ : Type) where
  report : ShapeImportReport
  incoming : List (StoredShape π)
  existing : List (StoredShape π)
  impact : γ

def checkSize (scope : ShapeTier) (size : Nat) : Except JsError Unit :=
  if size > perScope scope then
    .error (problem (js "A " ++ tierText scope ++
      js " import holds at most " ++ js (toString (perScope scope)) ++
      js " shapes") 413)
  else .ok ()

/-- A publication names the shape in its URL. -/
def checkUrlId (urlId : Option JsString) (first : Option JsString) :
    Except JsError Unit :=
  match urlId with
  | none => .ok ()
  | some urlId =>
      if first ≠ some urlId then
        .error (problem (js "The adapter id " ++ quote (first.getD []) ++
          js " differs from the shape id " ++ quote urlId ++
          js " in the URL"))
      else .ok ()

/-- The shapes of a batch, parsed and told apart. -/
def readBatch (writer : ShapeWriter) (urlId : Option JsString)
    (input : ImportBody) : Except JsError (List (StoredShape π)) := do
  checkSize writer.scope input.shapes.length
  let incoming ← parseBatch parser hash cardsOf writer.scope input.shapes
  checkUrlId urlId (incoming.head?.map (·.cliId))
  checkTwins [] incoming
  pure incoming

/-- The plan of an import of shapes that were read. -/
def planImport (writer : ShapeWriter) (input : ImportBody) (dryRun : Bool)
    (incoming : List (StoredShape π)) :
    ShapeProgram π γ (Plan π × List ShapeChange) := do
  let existing ← perform (I := shapeInterface π γ) (.listTier writer.toTierRef)
  let incoming := (input.shapes.zip incoming).map (fun item =>
    keepDescription writer.scope existing item.1 item.2)
  ofExcept (checkBatch writer.scope input.prune incoming existing)
  let now ← perform (I := shapeInterface π γ) .now
  let plan := planBatch writer dryRun input.prune now incoming existing
  let previousToml ← previousTexts (writer.scope = .instanceTier)
    ((plan.save.map (·.cliId) ++ plan.report.removed).filter
      (fun cliId => (previousOf existing cliId).isSome))
  pure (plan, planChanges writer input.source now previousToml plan)

/-- The saved shape as it is handed to the store: IdP-wide rows keep no
text. -/
def handed (scope : ShapeTier) (shape : StoredShape π) : StoredShape π :=
  if scope = .instanceTier then { shape with toml := none } else shape

def importNow (writer : ShapeWriter) (body : JsonValue) (dryRun : Bool)
    (urlId : Option JsString) : ShapeProgram π γ (ImportOutcome π γ) := do
  let input ← ofExcept (readImportBody body)
  let incoming ← ofExcept (readBatch parser hash cardsOf writer urlId input)
  let (plan, changes) ← planImport writer input dryRun incoming
  let impact ← perform (I := shapeInterface π γ)
    (.describeImpact writer plan.report plan.incoming plan.existing)
  if !dryRun && !changes.isEmpty then
    let _ ← perform (I := shapeInterface π γ) (.applyShapeChanges
      { tier := writer.toTierRef
        save := plan.save.map (handed writer.scope)
        remove := plan.report.removed
        changes := changes })
    pure ⟨{ plan.report with saved := true }, plan.incoming, plan.existing,
      impact⟩
  else
    pure ⟨plan.report, plan.incoming, plan.existing, impact⟩

def removeNow (writer : ShapeWriter) (cliId : JsString) :
    ShapeProgram π γ γ := do
  let existing ← perform (I := shapeInterface π γ) (.listTier writer.toTierRef)
  match previousOf existing cliId with
  | none =>
      fail (problem (js "There is no " ++ tierText writer.scope ++
        js " shape " ++ cliId) 404)
  | some previous =>
      throwIf (writer.scope = .instanceTier ∧ cliId ∈ desktopOwnShapeIds)
        (problem (cliId ++ js (" is an operation of the Pods desktop " ++
          "and cannot be removed")) 409)
      let grants ← perform (I := shapeInterface π γ) (.scopeGrants writer)
      let now ← perform (I := shapeInterface π γ) .now
      let lastToml ← previousTexts
        (previous.toml.isNone ∧ writer.scope = .instanceTier) [cliId]
      let _ ← perform (I := shapeInterface π γ) (.applyShapeChanges
        { tier := writer.toTierRef
          save := []
          remove := [cliId]
          changes := [change writer none now lastToml .remove (some previous)
            none] })
      pure grants

/-- The body of a publication: an import of exactly one shape. -/
def publishBody (body : JsonValue) : JsonValue :=
  let member (key : String) : List (JsString × JsonValue) :=
    ((body.field? (js key)).map (fun value => (js key, value))).toList
  .object [(js "shapes",
    .array [.object (member "toml" ++ member "description")])]

/-! ## The writes of a process -/

inductive ShapeWrite where
  | importShapes (writer : ShapeWriter) (body : JsonValue) (dryRun : Bool)
  | publishTierShape (writer : ShapeWriter) (cliId : JsString)
      (body : JsonValue) (dryRun : Bool)
  | removeTierShape (writer : ShapeWriter) (cliId : JsString)

def ShapeWrite.dryRun : ShapeWrite → Bool
  | importShapes _ _ dryRun => dryRun
  | publishTierShape _ _ _ dryRun => dryRun
  | removeTierShape _ _ => false

/-- What a write hands to `serialized`. -/
def ShapeWrite.body :
    ShapeWrite → ShapeProgram π γ (ImportOutcome π γ ⊕ γ)
  | importShapes writer body dryRun =>
      .inl <$> importNow parser hash cardsOf writer body dryRun none
  | publishTierShape writer cliId body dryRun =>
      .inl <$> importNow parser hash cardsOf writer (publishBody body) dryRun
        (some cliId)
  | removeTierShape writer cliId => .inr <$> removeNow writer cliId

end Writes

end OpenApe.Ports.ShapeImports
