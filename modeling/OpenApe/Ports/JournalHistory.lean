import OpenApe.Ports.JournalRecovery
import OpenApe.Ports.ReportLaws

/-!
# Histories with their policy journal

Report transactions and starts of the server, each followed by a journal
write that may be cut off before or after the new file has its name.  Along a
history the file is always a journal of an earlier state
(`sound_of_reached`), so that putting an older database in place and starting
on that file restores the newer policies (`initialize_restores`).
-/

namespace OpenApe.Ports.JournalHistory

open Verified.JsText Verified.Machine Verified.Transactions Verified.Unicode
open ReportContracts HtmlStore HtmlRuns HtmlLifecycle HtmlPolicyJournal
  JournalRecovery

/-! ## The machine -/

section Histories

variable [HtmlRuntime] [ReportRuntime] [CaseMapping]

/-- How far the journal was written: it was given up or cut off before the
new file had its name, or after that, or it was written to the end. -/
inductive JournalWrite where
  | lost
  | renamed
  | synced
  deriving DecidableEq

/-- A report transaction, or a start of the server. -/
inductive HistoryTurn where
  | call (call : ReportCall) (now : Int) (journal : JournalWrite)
  | start (journal : JournalWrite)

/-- The database, and the journal file beside it. -/
structure Server where
  clock : Int
  db : Reports
  file : Option PolicyJournal

/-- The file after a journal of this state was written that far. -/
def fileAfter (journal : JournalWrite) (db : Reports)
    (file : Option PolicyJournal) : Option PolicyJournal :=
  if journal = .lost then file else some (capture db)

/-- A transaction that was committed, with the next revision, is followed by
its journal. -/
def afterCall (call : ReportCall) (now : Int) (journal : JournalWrite)
    (s : Server) : Except ReportFailure Unit × Server :=
  let result := perform ⟨call, now, journal = .synced⟩ s.db
  (result.1.map fun _ => (),
    { clock := now
      db := result.2
      file := if result.2.revision = s.db.revision then s.file
        else fileAfter journal result.2 s.file })

def afterStart (journal : JournalWrite) (s : Server) :
    Except ReportFailure Unit × Server :=
  match initializeHtmlPolicyJournal s.file s.db with
  | (.error e, db) => (.error e, { s with db := db })
  | (.ok (), db) =>
      (.ok (), { s with db := db, file := fileAfter journal db s.file })

def history : Machine Server HistoryTurn (Except ReportFailure Unit)
  | .call call now journal => afterCall call now journal
  | .start journal => afterStart journal

/-- Time does not go back. -/
def ordered (s : Server) : HistoryTurn → Prop
  | .call _ now _ => s.clock ≤ now
  | .start _ => True

def newServer (store : JsString) (clock : Int) : Server :=
  ⟨clock, emptyReports store, none⟩

/-- What holds along a history: the file is a journal of this database, and
not newer than it. -/
structure Sound (s : Server) : Prop where
  inv : Inv s.db
  file : ∀ journal ∈ s.file, journal.store = s.db.instanceId ∧
    journal.revision ≤ s.db.revision

omit [HtmlRuntime] [ReportRuntime] [CaseMapping] in
theorem sound_newServer (store : JsString) (clock : Int) :
    Sound (newServer store clock) :=
  ⟨inv_emptyReports store, fun _ hNone => nomatch hNone⟩

/-! ## What holds along a history -/

variable {s o : Server}

omit [HtmlRuntime] [ReportRuntime] [CaseMapping] in
/-- A start within a history leaves the database as it is. -/
theorem db_afterStart (journal : JournalWrite) (hSound : Sound s) :
    (afterStart journal s).2.db = s.db := by
  have hSame : (initializeHtmlPolicyJournal s.file s.db).2 = s.db := by
    cases hFile : s.file with
    | none => rfl
    | some saved =>
        obtain ⟨hStore, hOld⟩ := hSound.file saved hFile
        exact initialize_of_le hStore hOld
  unfold afterStart
  split
  · rename_i hRun
    rw [hRun] at hSame
    exact hSame
  · rename_i hRun
    rw [hRun] at hSame
    exact hSame

/-- The file after a turn is the one before, or a journal of the state
after. -/
theorem file_afterTurn (turn : HistoryTurn) (s : Server) :
    (history turn s).2.file = s.file ∨
      (history turn s).2.file = some (capture (history turn s).2.db) := by
  have hWritten : ∀ journal db file, fileAfter journal db file = file ∨
      fileAfter journal db file = some (capture db) := by
    intro journal db file
    unfold fileAfter
    split
    · exact .inl rfl
    · exact .inr rfl
  cases turn with
  | call call now journal =>
      change (if _ then _ else _) = _ ∨ (if _ then _ else _) = _
      split
      · exact .inl rfl
      · exact hWritten journal _ s.file
  | start journal =>
      change (afterStart journal s).2.file = _ ∨
        (afterStart journal s).2.file = some (capture (afterStart journal s).2.db)
      unfold afterStart
      split
      · exact .inl rfl
      · exact hWritten journal _ s.file

theorem sound_afterTurn (turn : HistoryTurn) (hSound : Sound s) :
    Sound (history turn s).2 ∧ Extends s.db (history turn s).2.db := by
  have hDb : Inv (history turn s).2.db ∧ Extends s.db (history turn s).2.db := by
    cases turn with
    | call call now journal =>
        have hSettled := settled_perform hSound.inv.names
          ⟨call, now, journal = .synced⟩
        exact ⟨settled_inv hSound.inv hSettled,
          settled_extends hSound.inv hSettled⟩
    | start journal =>
        change Inv (afterStart journal s).2.db ∧
          Extends s.db (afterStart journal s).2.db
        rw [db_afterStart journal hSound]
        exact ⟨hSound.inv, .refl s.db⟩
  refine ⟨⟨hDb.1, fun journal hJournal => ?_⟩, hDb.2⟩
  cases file_afterTurn turn s with
  | inl hSame =>
      obtain ⟨hStore, hOld⟩ := hSound.file journal (hSame ▸ hJournal)
      exact ⟨hStore.trans hDb.2.store.symm, hOld.trans hDb.2.revision⟩
  | inr hNew =>
      rw [hNew] at hJournal
      obtain rfl := Option.mem_some_iff.mp hJournal
      exact ⟨rfl, le_refl _⟩

/-- Along a history the database only goes on, and the file is the one it
started with, or a journal of a state between. -/
theorem sound_of_reached (hSound : Sound o)
    (h : Reached history ordered o s) :
    Sound s ∧ Extends o.db s.db ∧ (s.file = o.file ∨
      ∃ n, Reached history ordered o n ∧ Reached history ordered n s ∧
        s.file = some (capture n.db)) := by
  induction h with
  | refl => exact ⟨hSound, .refl o.db, .inl rfl⟩
  | turn hBefore turn hOk ih =>
      obtain ⟨hMid, hExtends, hFile⟩ := ih
      obtain ⟨hAfter, hStep⟩ := sound_afterTurn turn hMid
      refine ⟨hAfter, hExtends.trans hStep, ?_⟩
      cases file_afterTurn turn _ with
      | inr hNew => exact .inr ⟨_, hBefore.turn turn hOk, .refl, hNew⟩
      | inl hSame =>
          rw [hSame]
          refine hFile.imp id fun hOld => ?_
          obtain ⟨n, hFirst, hRest, hIs⟩ := hOld
          exact ⟨n, hFirst, hRest.turn turn hOk, hIs⟩

/-! ## Restoring -/

/-- The newer of a database and a journal, as a state of the history. -/
structure Newer (start o s n : Server) : Prop where
  before : Reached history ordered start n
  after : Reached history ordered n s
  either : n.db = o.db ∨ s.file = some (capture n.db)
  database : o.db.revision ≤ n.db.revision
  journal : ∀ journal ∈ s.file, journal.revision ≤ n.db.revision

/-- An older database of a history, with the journal that the history left:
the start of the server refuses it and changes nothing, or it leaves the
policies of the newer of the two states, and a further start leaves those as
they are. -/
theorem initialize_restores (store : JsString) (clock : Int)
    (hOlder : Reached history ordered (newServer store clock) o)
    (hRest : Reached history ordered o s) :
    (∃ e, initializeHtmlPolicyJournal s.file o.db = (.error e, o.db)) ∨
      ∃ restored n, initializeHtmlPolicyJournal s.file o.db =
          (.ok (), restored) ∧
        Newer (newServer store clock) o s n ∧ SamePolicy n.db restored ∧
        initializeHtmlPolicyJournal s.file restored = (.ok (), restored) ∧
        (initializeHtmlPolicyJournal (some (capture restored)) restored).2 =
          restored := by
  obtain ⟨hSound, -, -⟩ :=
    sound_of_reached (sound_newServer store clock) hOlder
  obtain ⟨-, -, hFile⟩ := sound_of_reached hSound hRest
  obtain ⟨_, restored, hReturn, hRun⟩ | hThrow :=
    (initialize_atomic s.file).outcome o.db
  swap
  · exact .inl hThrow
  have hAgain : (initializeHtmlPolicyJournal (some (capture restored))
      restored).2 = restored := initialize_of_le rfl (le_refl _)
  obtain ⟨hSafe, ⟨hOld, rfl⟩ | ⟨journal, hJournal, hNew, hApplied⟩⟩ :=
    returns_initialize hReturn
  · exact .inr ⟨o.db, o, hRun, ⟨hOlder, hRest, .inl rfl, le_refl _, hOld⟩,
      samePolicy_self hSound.inv, hRun, hAgain⟩
  obtain hSame | ⟨n, hBefore, hAfter, hIs⟩ := hFile
  · have hNotNewer := (hSound.file journal (hSame ▸ hJournal)).2
    omega
  obtain rfl : journal = capture n.db := by
    rw [hIs] at hJournal
    exact (Option.mem_some_iff.mp hJournal).symm
  obtain ⟨-, hExtends, -⟩ := sound_of_reached hSound hBefore
  obtain ⟨hSame, hRevision, hStore⟩ :=
    returns_applyAll hSound.inv hExtends hApplied
  have hFixed : Returns (initializeHtmlPolicyJournal (some (capture n.db)))
      restored () restored := by
    refine returns_initialize_of_le (hSafe _ hJournal) ?_ ?_
    · exact hExtends.store.trans hStore.symm
    · exact hRevision.ge
  refine .inr ⟨restored, n, hRun,
    ⟨hOlder.trans hBefore, hAfter, .inr hIs, hExtends.revision, ?_⟩, hSame, ?_,
    hAgain⟩
  · rw [hIs]
    intro other hOther
    rw [← Option.mem_some_iff.mp hOther]
    exact le_refl _
  · rw [hIs]
    exact hFixed

end Histories

open ReportLaws.Sample in
/-- A report of two versions, and the same server after the report was
removed. -/
theorem initialize_restores_removed :
    letI := runtime
    letI := labels
    letI := asciiCaseMapping
    let created := (history (.call create.call 0 .synced)
      (newServer (js "s") 0)).2
    let older := (history (.call update.call 1 .synced) created).2
    let current := (history (.call remove.call 2 .renamed) older).2
    (initializeHtmlPolicyJournal current.file older.db).1.isOk = true ∧
    ((∃ e, initializeHtmlPolicyJournal current.file older.db =
        (.error e, older.db)) ∨
      ∃ restored n, initializeHtmlPolicyJournal current.file older.db =
          (.ok (), restored) ∧
        Newer (newServer (js "s") 0) older current n ∧
        SamePolicy n.db restored ∧
        initializeHtmlPolicyJournal current.file restored =
          (.ok (), restored) ∧
        (initializeHtmlPolicyJournal (some (capture restored)) restored).2 =
          restored) := by
  refine ⟨by decide +kernel, ?_⟩
  exact @initialize_restores runtime labels asciiCaseMapping _ _ (js "s") 0
    (.turn (.turn .refl (HistoryTurn.call create.call 0 .synced)
        (le_refl (0 : Int)))
      (HistoryTurn.call update.call 1 .synced) (show (0 : Int) ≤ 1 by decide))
    (.turn .refl (HistoryTurn.call remove.call 2 .renamed)
      (show (1 : Int) ≤ 2 by decide))

end OpenApe.Ports.JournalHistory
