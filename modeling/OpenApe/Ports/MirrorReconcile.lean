import OpenApe.Ports.MirrorRefs
import OpenApe.Verified.KeyedTable
import OpenApe.Verified.SerialJobs
import OpenApe.Verified.TextPieces

/-!
# Mirror reconciliation (`apps/openape-git/server/utils/mirror-reconcile.ts`)

`reconcile` brings the refs of a repository to its mirrors, ref by ref, and
records for each ref what it saw; the record decides later whether a ref may
be deleted.  Source, targets and the mirrors themselves change under it at any
time.  `reconcileMirrors` runs one reconciliation of a repository after
another.

`Protects` states what mirroring promises to the work of others.
-/

namespace OpenApe.Ports.MirrorReconcile

open MirrorRefs
open Verified.JsText Verified.KeyedTable Verified.Programs
  Verified.Programs.Program Verified.SerialJobs
open Verified.TextPieces (pieces)

/-! ## The rows -/

/-- A row of `mirrors`. -/
structure Mirror where
  id : JsString
  url : JsString
  username : JsString
  token : JsString
  enabled : Int

/-- A row of `mirror_ref_states`. -/
structure RefState where
  mirrorId : JsString
  ref : JsString
  sourceSha : Option JsString
  targetSha : Option JsString
  lastSuccessfulSha : Option JsString
  checkedAt : Int
  syncedAt : Option Int
  error : Option JsString

/-- `uniqueIndex('idx_mirror_state_ref').on(t.mirrorId, t.ref)` -/
def RefState.key (row : RefState) : JsString × JsString :=
  (row.mirrorId, row.ref)

/-- A row of `mirror_pushes`. -/
structure MirrorPush where
  id : JsString
  mirrorId : JsString
  ref : JsString
  sha : JsString
  ok : Int
  error : Option JsString
  durationMs : Int
  createdAt : Int

/-- What a command or a query throws. -/
structure Failure where
  stderr : JsString
  message : JsString

/-! ## The calls -/

inductive Call where
  | selectMirrors
  | selectStates (mirrorId : JsString)
  /-- `git for-each-ref` in the source -/
  | forEachRef
  /-- `git ls-remote --refs` of the target -/
  | lsRemote (mirror : Mirror)
  /-- `git push`, with `--force-with-lease=ref:lease` when there is one, and
  the refspec `sourceSha:ref`. -/
  | push (mirror : Mirror) (ref : JsString) (lease : Option (Option JsString))
      (sourceSha : Option JsString)
  | now
  | ulid
  | upsertState (row : RefState)
  | insertPush (row : MirrorPush)
  | sleep (ms : Nat)

def Call.Reply : Call → Type
  | selectMirrors => List Mirror
  | selectStates _ => List RefState
  | forEachRef => JsString
  | lsRemote _ => JsString
  | push _ _ _ _ => Unit
  | now => Int
  | ulid => JsString
  | upsertState _ => Unit
  | insertPush _ => Unit
  | sleep _ => Unit

@[reducible] def mirroring : Interface := ⟨Call, Call.Reply⟩

abbrev Reconciling := Program mirroring Failure

@[reducible] def selectMirrors : Reconciling (List Mirror) :=
  perform (I := mirroring) .selectMirrors

@[reducible] def selectStates (mirrorId : JsString) :
    Reconciling (List RefState) :=
  perform (I := mirroring) (.selectStates mirrorId)

@[reducible] def forEachRef : Reconciling JsString :=
  perform (I := mirroring) .forEachRef

@[reducible] def dateNow : Reconciling Int := perform (I := mirroring) .now

@[reducible] def ulid : Reconciling JsString :=
  perform (I := mirroring) .ulid

@[reducible] def upsertState (row : RefState) : Reconciling Unit :=
  perform (I := mirroring) (.upsertState row)

@[reducible] def insertPush (row : MirrorPush) : Reconciling Unit :=
  perform (I := mirroring) (.insertPush row)

@[reducible] def sleep (ms : Nat) : Reconciling Unit :=
  perform (I := mirroring) (.sleep ms)

/-! ## `mirror.ts` -/

/-- `if (text)`, of a text that may be null. -/
def truthy : Option JsString → Bool
  | none => false
  | some text => decide (text ≠ [])

/-- `first || second` -/
def orElse (first second : JsString) : JsString :=
  if first = [] then second else first

/-- `redactToken` -/
def redactToken (text token : JsString) : JsString :=
  if token = [] then text else (js "***").intercalate (pieces token text)

def localMirrorRefs : Reconciling RefMap := do
  let stdout ← forEachRef
  pure (parseMirrorRefs stdout)

/-- The message of the error `remoteMirrorRefs` throws. -/
def remoteError (mirror : Mirror) (failure : Failure) : JsString :=
  (redactToken failure.message mirror.token).take 2000

/-- `remoteMirrorRefs`, with the message of what it throws. -/
def remoteMirrorRefs (mirror : Mirror) :
    Reconciling (Except JsString RefMap) :=
  .ask (.lsRemote mirror) fun
    | .ok stdout => pure (.ok (parseMirrorRefs stdout))
    | .error failure => pure (.error (remoteError mirror failure))

/-- `(e.stderr || e.message || 'push failed').trim()` -/
def pushRaw (failure : Failure) : JsString :=
  trim (orElse failure.stderr (orElse failure.message (js "push failed")))

def pushError (mirror : Mirror) (failure : Failure) : JsString :=
  (redactToken (pushRaw failure) mirror.token).take 2000

/-- `pushRefToMirror`: none when it worked, or the error it reports. -/
def pushRefToMirror (mirror : Mirror) (ref : JsString)
    (sourceSha targetSha : Option JsString) : Reconciling (Option JsString) :=
  .ask (.push mirror ref (if sourceSha = none then some targetSha else none)
      sourceSha) fun
    | .ok _ => pure none
    | .error failure => pure (some (pushError mirror failure))

/-! ## `mirror-reconcile.ts` -/

/-- `old.get(ref)`, of the `Map` that `known` makes. -/
def rowOf (known : List RefState) (ref : JsString) : Option RefState :=
  known.reverse.find? fun row => row.ref == ref

/-- The variables an attempt leaves behind. -/
structure Tried where
  observed : Option RefMap
  targetSha : Option JsString
  error : Option JsString

/-- `catch (err)` -/
def caught (targetSha : Option JsString) (message : JsString) : Tried :=
  ⟨none, targetSha, some (message.take 2000)⟩

/-- `observed ??= await remoteMirrorRefs(dir, mirror)` -/
def observe (mirror : Mirror) :
    Option RefMap → Reconciling (Except JsString RefMap)
  | some observed => pure (.ok observed)
  | none => remoteMirrorRefs mirror

/-- What a push leaves: `observed = await remoteMirrorRefs(dir, mirror)`, and
the comparison with it. -/
def verifyPush (mirror : Mirror) (ref : JsString)
    (sourceSha targetSha : Option JsString) : Reconciling Tried := do
  match ← remoteMirrorRefs mirror with
  | .error message => pure (caught targetSha message)
  | .ok observed =>
      if sourceSha ≠ RefMap.get observed ref then
        pure (caught (RefMap.get observed ref)
          (js "Target changed during verification; will reconcile again"))
      else pure ⟨some observed, RefMap.get observed ref, none⟩

/-- What the attempt does with the target it observed. -/
def tryPush (mirror : Mirror) (lastSuccessfulSha : Option JsString)
    (ref : JsString) (sourceSha : Option JsString) (observed : RefMap) :
    Reconciling Tried := do
  let targetSha := RefMap.get observed ref
  if sourceSha = targetSha then pure ⟨some observed, targetSha, none⟩
  else if sourceSha == none &&
      !mayDeleteMirrorRef lastSuccessfulSha targetSha then
    pure (caught targetSha (js ("Deletion refused: target differs from the " ++
      "last successfully replicated SHA")))
  else
    match ← pushRefToMirror mirror ref sourceSha targetSha with
    | some error => pure (caught targetSha error)
    | none => verifyPush mirror ref sourceSha targetSha

/-- The `try` block of an attempt. -/
def tryRef (mirror : Mirror) (lastSuccessfulSha : Option JsString)
    (ref : JsString) (sourceSha : Option JsString)
    (observed : Option RefMap) : Reconciling Tried := do
  match ← observe mirror observed with
  | .error message => pure (caught none message)
  | .ok observed => tryPush mirror lastSuccessfulSha ref sourceSha observed

/-- `const state = …` -/
def stateOf (mirror : Mirror) (old : Option RefState) (ref : JsString)
    (sourceSha : Option JsString) (tried : Tried) (now : Int) : RefState where
  mirrorId := mirror.id
  ref := ref
  sourceSha := sourceSha
  targetSha := tried.targetSha
  checkedAt := now
  error := tried.error
  syncedAt := if truthy tried.error then old.bind RefState.syncedAt
    else some now
  lastSuccessfulSha :=
    if truthy tried.error then old.bind RefState.lastSuccessfulSha
    else sourceSha

/-- `'0'.repeat(40)` -/
def zeroSha : JsString := List.replicate 40 (unit '0')

/-- Successful scans without a change stay out of the attempt history. -/
def recordPush (mirror : Mirror) (old : Option RefState) (ref : JsString)
    (sourceSha : Option JsString) (tried : Tried) (started now : Int) :
    Reconciling Unit :=
  if truthy tried.error || old.map RefState.sourceSha != some sourceSha ||
      truthy (old.bind RefState.error) then do
    let id ← ulid
    let ended ← dateNow
    insertPush
      { id := id
        mirrorId := mirror.id
        ref := ref
        sha := sourceSha.getD zeroSha
        ok := if truthy tried.error then 0 else 1
        error := tried.error
        durationMs := ended - started
        createdAt := now }
  else pure ()

/-- One attempt at a ref. -/
def attempt (mirror : Mirror) (old : Option RefState) (ref : JsString)
    (observed : Option RefMap) : Reconciling Tried := do
  let source ← localMirrorRefs
  let sourceSha := RefMap.get source ref
  let started ← dateNow
  let tried ← tryRef mirror (old.bind RefState.lastSuccessfulSha) ref
    sourceSha observed
  let time ← dateNow
  let now := time / 1000
  upsertState (stateOf mirror old ref sourceSha tried now)
  recordPush mirror old ref sourceSha tried started now
  pure tried

/-- `/rejected|fetch first|Deletion refused|Authentication failed|403/` -/
def isFinal (error : JsString) : Bool :=
  [js "rejected", js "fetch first", js "Deletion refused",
    js "Authentication failed", js "403"].any fun word =>
      error.tails.any word.isPrefixOf

/-- `for (let attempt = 0; attempt < 3; attempt++)`, with the attempts that
are left; the target as last observed is handed on. -/
def attempts (mirror : Mirror) (old : Option RefState) (ref : JsString) :
    Nat → Option RefMap → Reconciling (Option RefMap)
  | 0, observed => pure observed
  | left + 1, observed => do
      let tried ← attempt mirror old ref observed
      if !truthy tried.error then pure tried.observed
      else if isFinal (tried.error.getD []) then pure tried.observed
      else if left = 0 then pure tried.observed
      else
        sleep (1000 * (3 - left))
        attempts mirror old ref left tried.observed

/-- `for (const ref of refs)` -/
def eachRef (mirror : Mirror) (known : List RefState) :
    List JsString → Option RefMap → Reconciling Unit
  | [], _ => pure ()
  | ref :: refs, observed => do
      let observed ← attempts mirror (rowOf known ref) ref 3 observed
      eachRef mirror known refs observed

/-- `new Set([...source.keys(), ...old.keys()])` -/
def allRefs (source : RefMap) (known : List RefState) : List JsString :=
  (source.map Prod.fst ++ known.map RefState.ref).eraseDups

def eachMirror : List Mirror → Reconciling Unit
  | [] => pure ()
  | mirror :: mirrors => do
      let known ← selectStates mirror.id
      let source ← localMirrorRefs
      eachRef mirror known (allRefs source known) none
      eachMirror mirrors

def reconcile : Reconciling Unit := do
  let targets ← selectMirrors
  eachMirror (targets.filter fun mirror => mirror.enabled != 0)

/-! ## The world -/

/-- What a run has read of source or target. -/
inductive Reading where
  | source (refs : Refs)
  | target (mirror : Mirror) (refs : Refs)

structure World where
  mirrors : List Mirror
  source : Refs
  /-- The repository at each URL. -/
  targets : JsString → Refs
  states : Table RefState.key
  pushes : List MirrorPush
  /-- The number of reconciliations so far, and what each of them has read:
  for the statements only. -/
  run : Nat
  readings : List (Nat × Reading)

def World.read (w : World) (reading : Reading) : World :=
  { w with readings := w.readings ++ [(w.run, reading)] }

/-- A repository whose `ref` was set, and no other. -/
def Updated (before : Refs) (ref : JsString) (sha : Option JsString)
    (after : Refs) : Prop :=
  ∀ name, after.get name = if name = ref then sha else before.get name

/-- What `git push` may do: create a ref, move it forward, or remove it as it
was leased.  `descends` is the history: the second commit has the first as an
ancestor. -/
def Pushed (descends : JsString → JsString → Prop) (before : Refs)
    (ref : JsString) (lease : Option (Option JsString))
    (sourceSha : Option JsString) (after : Refs) : Prop :=
  Updated before ref sourceSha after ∧
    (∀ leased, lease = some leased → before.get ref = leased) ∧
    match sourceSha with
    | some sha => ∀ old, before.get ref = some old → old = sha ∨
        descends old sha
    | none => True

variable (descends : JsString → JsString → Prop)

/-- What a call that succeeds returns and does. -/
def Effect : (call : Call) → World → Call.Reply call → World → Prop
  | .selectMirrors, w, reply, w' => reply = w.mirrors ∧ w' = w
  | .selectStates mirrorId, w, reply, w' =>
      reply = (w.states.rows.filter fun row => row.mirrorId == mirrorId) ∧
        w' = w
  | .forEachRef, w, reply, w' =>
      reply = localOutput w.source ∧ w' = w.read (.source w.source)
  | .lsRemote mirror, w, reply, w' =>
      reply = remoteOutput (w.targets mirror.url) ∧
        w' = w.read (.target mirror (w.targets mirror.url))
  | .push mirror ref lease sourceSha, w, _, w' =>
      ∃ after,
        Pushed descends (w.targets mirror.url) ref lease sourceSha after ∧
          w' = { w with targets := Function.update w.targets mirror.url after }
  | .now, w, _, w' => w' = w
  | .ulid, w, _, w' => w' = w
  | .upsertState row, w, _, w' => w' = { w with states := w.states.put row }
  | .insertPush row, w, _, w' => w' = { w with pushes := w.pushes ++ [row] }
  | .sleep _, w, _, w' => w' = w

/-- Calls that change something. -/
def Call.writes : Call → Bool
  | .push _ _ _ _ | .upsertState _ | .insertPush _ => true
  | _ => false

/-- Any call may fail; one that writes may have done so all the same. -/
def Answer (call : Call) (w : World) :
    Except Failure (Call.Reply call) → World → Prop
  | .ok reply, w' => Effect descends call w reply w'
  | .error _, w' => w' = w ∨
      call.writes = true ∧ ∃ reply, Effect descends call w reply w'

/-- What others do meanwhile: anything to the mirrors, the source and the
targets. -/
def Meanwhile (w w' : World) : Prop :=
  w'.states = w.states ∧ w'.pushes = w.pushes ∧ w'.run = w.run ∧
    w'.readings = w.readings

/-- `reconcileMirrors` of one repository: `running` holds the last promise,
and each reconciliation waits for the one before it, however that ended. -/
def reconcileMirrors : Setting mirroring Failure Unit World where
  program := reconcile
  enter := fun w => { w with run := w.run + 1 }
  env := Meanwhile
  answer := Answer descends

/-! ## What is promised -/

/-- A ref that had a value keeps it, or was moved to a descendant, or was
removed by a push that deletes what its state records as replicated. -/
def KeepsWork (call : Call) (w w' : World) : Prop :=
  ∀ url ref sha, (w.targets url).get ref = some sha →
    match (w'.targets url).get ref with
    | some sha' => sha' = sha ∨ descends sha sha'
    | none => ∃ mirror lease row, call = .push mirror ref lease none ∧
        mirror.url = url ∧ w.states.find? (mirror.id, ref) = some row ∧
        row.lastSuccessfulSha = some sha

/-- One run has read the value, or the absence, on both sides. -/
def SeenEqual (w : World) (mirrorId ref : JsString) (sha : Option JsString) :
    Prop :=
  ∃ run source mirror target, (run, .source source) ∈ w.readings ∧
    (run, .target mirror target) ∈ w.readings ∧ mirror.id = mirrorId ∧
    source.get ref = sha ∧ target.get ref = sha

/-- What a state records as replicated was seen equal; before that it records
nothing. -/
def RowSeen (w : World) (row : RefState) : Prop :=
  match row.syncedAt with
  | some _ => SeenEqual w row.mirrorId row.ref row.lastSuccessfulSha
  | none => row.lastSuccessfulSha = none

def RecordsSeen (w : World) : Prop := ∀ row ∈ w.states.rows, RowSeen w row

/-- Every enabled mirror has every ref of the source. -/
def Mirrored (w : World) : Prop :=
  ∀ mirror ∈ w.mirrors, mirror.enabled ≠ 0 →
    ∀ ref sha, w.source.get ref = some sha →
      (w.targets mirror.url).get ref = some sha

/-- No one else does anything, and no push is rejected. -/
def Undisturbed : Label mirroring Failure → Prop
  | .other => False
  | .call _ (.push _ _ _ _) (.error _) => False
  | _ => True

/-- **Mirroring destroys no foreign work**, in the runs whose steps satisfy
`ok`: each call keeps the work on the targets; what is recorded as replicated
was seen on both sides; and a reconciliation that is not disturbed, whose
steps satisfy `quiet`, leaves source and mirrors equal. -/
def Protects (ok quiet : World → Label mirroring Failure → Prop) : Prop :=
  ∀ (world : World) (labels : List (Label mirroring Failure))
    (s : System mirroring Failure Unit World), world.states = Table.empty →
    Path (reconcileMirrors descends) ok (initial world) labels s →
      (∀ i call reply s',
        Step (reconcileMirrors descends) s (.call i call reply) s' →
          ok s.world (.call i call reply) →
            KeepsWork descends call s.world s'.world) ∧
      RecordsSeen s.world ∧
      ∀ i inner s',
        Path (reconcileMirrors descends)
          (fun w label => quiet w label ∧ Undisturbed label) s
          (.start i :: inner ++ [.settle i]) s' →
            Mirrored s'.world

/-- No ref name that is read holds white space, and no error is blank. -/
def LegibleReply (w : World) :
    (call : Call) → Except Failure (Call.Reply call) → Prop
  | .forEachRef, .ok _ => Plain w.source
  | .lsRemote mirror, .ok _ => Plain (w.targets mirror.url)
  | .lsRemote _, .error failure => failure.message ≠ []
  | .push _ _ _ _, .error failure => pushRaw failure ≠ []
  | _, _ => True

def Legible (w : World) : Label mirroring Failure → Prop
  | .call _ call reply => LegibleReply w call reply
  | _ => True

/-- Every command and query is answered, and legibly. -/
def Answered (w : World) : Label mirroring Failure → Prop
  | .call _ _ (.error _) => False
  | .call _ call (.ok reply) => LegibleReply w call (.ok reply)
  | _ => True

end OpenApe.Ports.MirrorReconcile
