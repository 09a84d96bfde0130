import OpenApe.Verified.JsText
import OpenApe.Verified.KeyedTable

/-!
# Approved vault secrets (`apps/openape-secrets/server`)

An owner approves the handover of a secret by sealing a package, which the
requester collects.  A turn is a statement or a transaction of a handler, so
handlers interleave between any two.  Checks that only refuse, as of the
passkey or the machine's key, are left out: a refused call is no turn.
-/

namespace OpenApe.Ports.VaultApprovals

open Verified.JsText Verified.KeyedTable

structure VaultSecret where
  id : JsString
  vaultId : JsString
  currentVersion : Nat
  deletedAt : Option Int

inductive Mode where
  | once
  | timed
  | standing
  deriving DecidableEq

inductive Status where
  | active
  | consumed
  | revoked
  deriving DecidableEq

structure Package where
  epk : JsString
  iv : JsString
  ct : JsString
  sig : JsString

/-- `EMPTY_PACKAGE` -/
def emptyPackage : Package := ⟨[], [], [], []⟩

structure SecretApproval where
  id : JsString
  requester : JsString
  secretId : JsString
  secretVersion : Nat
  mode : Mode
  expiresAt : Option Int
  status : Status
  package : Package

abbrev Secrets := Table VaultSecret.id

structure Vault where
  secrets : Secrets := .empty
  approvals : Table SecretApproval.id := .empty

def currentVersionOf (secrets : Secrets) (row : SecretApproval) : Option Nat :=
  (secrets.find? row.secretId).bind fun secret =>
    if secret.deletedAt.isNone then some secret.currentVersion else none

def collectable (secrets : Secrets) (now : Int) (row : SecretApproval) : Bool :=
  row.status = .active && row.expiresAt.all (now < ·) &&
    some row.secretVersion = currentVersionOf secrets row

/-- The condition of `sweepApprovalPackages`. -/
def sweepable (secrets : Secrets) (now : Int) (row : SecretApproval) : Bool :=
  row.package.ct ≠ [] && (row.status ≠ .active ||
    row.expiresAt.any (· ≤ now) ||
      some row.secretVersion ≠ currentVersionOf secrets row)

inductive Turn where
  | save (vaultId secretId : JsString) (version : Nat)
  | delete (vaultId secretId : JsString) (version : Nat)
  | approve (approval : SecretApproval)
  | collect (caller id : JsString)
  | empty (id : JsString)
  | revoke (id : JsString)
  | sweep

/-- The row that `actions/commit` changes: live, and of this version. -/
def current (vaultId secretId : JsString) (version : Nat)
    (secret : VaultSecret) : Bool :=
  secret.id = secretId && secret.vaultId = vaultId &&
    secret.deletedAt.isNone && secret.currentVersion = version

def changed (status : Status → Status) (package : Package → Package)
    (row : SecretApproval) : SecretApproval :=
  { row with status := status row.status, package := package row.package }

def write (s : Vault) (p : SecretApproval → Bool) (status : Status → Status)
    (package : Package → Package) : Vault :=
  { s with
    approvals := s.approvals.update p (changed status package) fun _ => rfl }

/-- A turn, and the row that a collection returns. -/
def turn (now : Int) (s : Vault) : Turn → Vault × Option SecretApproval
  | .save vaultId secretId version =>
      ({ s with
        secrets := if version = 1 then
            s.secrets.putNew ⟨secretId, vaultId, 1, none⟩
          else s.secrets.update (current vaultId secretId (version - 1))
            ({ · with currentVersion := version }) fun _ => rfl }, none)
  | .delete vaultId secretId version =>
      ({ s with
        secrets := s.secrets.update (current vaultId secretId version)
          ({ · with deletedAt := some now }) fun _ => rfl }, none)
  | .approve approval =>
      let row := { approval with status := .active }
      (if currentVersionOf s.secrets row = some row.secretVersion then
        { s with approvals := s.approvals.putNew row } else s, none)
  | .collect caller asked =>
      -- No statement writes what the handler reads before: requester, mode.
      match (s.approvals.find? asked).filter fun row =>
        row.requester = caller && collectable s.secrets now row with
      | none => (s, none)
      | some row =>
          if row.mode = .once then
            (write s (·.id = asked) (fun _ => .consumed) id,
              some { row with status := .consumed })
          else (s, some row)
  | .empty asked =>
      -- The end of a collection of a once package.
      (write s (·.id = asked) id fun _ => emptyPackage, none)
  | .revoke asked =>
      (write s (fun row => row.id = asked && row.status = .active)
        (fun _ => .revoked) fun _ => emptyPackage, none)
  | .sweep =>
      (write s (sweepable s.secrets now) id fun _ => emptyPackage, none)

/-- The rows that the collections of a run return. -/
def collected : List (Int × Turn) → Vault → List SecretApproval
  | [], _ => []
  | (now, t) :: ts, s =>
      (turn now s t).2.toList ++ collected ts (turn now s t).1

/-! ## Single use -/

/-- The approval was consumed or revoked. -/
def Spent (s : Vault) (id : JsString) : Prop :=
  ∃ row, s.approvals.find? id = some row ∧ row.status ≠ .active

theorem find?_write (s : Vault) (p : SecretApproval → Bool)
    (status : Status → Status) (package : Package → Package)
    (id : JsString) :
    (write s p status package).approvals.find? id =
      (s.approvals.find? id).map fun row =>
        if p row then changed status package row else row :=
  Table.find?_update s.approvals p (changed status package) (fun _ => rfl) id

theorem spent_write {s : Vault} {id : JsString} (h : Spent s id)
    (p : SecretApproval → Bool) {status : Status → Status}
    (package : Package → Package)
    (hStatus : ∀ old, old ≠ .active → status old ≠ .active) :
    Spent (write s p status package) id := by
  obtain ⟨row, hFound, hSpent⟩ := h
  refine ⟨_, (find?_write s p status package id).trans
    (congrArg _ hFound), ?_⟩
  dsimp only
  split
  · exact hStatus _ hSpent
  · exact hSpent

/-- A sweep empties nothing that can be collected. -/
theorem not_collectable_of_sweepable {secrets : Secrets} {now : Int}
    {row : SecretApproval} (h : sweepable secrets now row = true) :
    collectable secrets now row = false := by
  rw [← Bool.not_eq_true]
  intro hCollect
  simp only [sweepable, collectable, Bool.and_eq_true, Bool.or_eq_true,
    decide_eq_true_eq, Option.any_eq_true, Option.all_eq_true] at h hCollect
  obtain ⟨-, (hStatus | ⟨deadline, hEnd, hPast⟩) | hVersion⟩ := h
  · exact hStatus hCollect.1.1
  · exact absurd (hCollect.1.2 deadline hEnd) (by omega)
  · exact hVersion hCollect.2

theorem spent_turn {s : Vault} {id : JsString} (h : Spent s id) (now : Int)
    (t : Turn) : Spent (turn now s t).1 id := by
  cases t with
  | save _ _ _ => exact h
  | delete _ _ _ => exact h
  | approve approval =>
      rw [turn]
      dsimp only
      split
      · obtain ⟨row, hFound, hSpent⟩ := h
        exact ⟨row, Table.find?_putNew hFound, hSpent⟩
      · exact h
  | collect caller asked =>
      rw [turn]
      split
      · exact h
      · split
        · exact spent_write h _ _ fun _ _ => by decide
        · exact h
  | empty asked => exact spent_write h _ _ fun _ hOld => hOld
  | revoke asked => exact spent_write h _ _ fun _ _ => by decide
  | sweep => exact spent_write h _ _ fun _ hOld => hOld

/-- What is returned was collectable, and a once approval is spent then. -/
theorem collect_cases {now : Int} {s : Vault} {t : Turn}
    {row : SecretApproval} (h : (turn now s t).2 = some row) :
    ∃ old, s.approvals.find? row.id = some old ∧
      collectable s.secrets now old = true ∧
      row = { old with
        status := if old.mode = .once then .consumed else old.status } ∧
      (old.mode = .once → Spent (turn now s t).1 row.id) := by
  cases t with
  | collect caller asked =>
      rw [turn] at h ⊢
      split at h
      · cases h
      · rename_i old hOld
        obtain ⟨hFound, hCollect⟩ := Option.filter_eq_some_iff.mp hOld
        obtain rfl := Table.key_of_find? hFound
        have hCollectable := (Bool.and_eq_true_iff.mp hCollect).2
        split at h
        · rename_i hOnce
          cases h
          refine ⟨old, hFound, hCollectable, by rw [if_pos hOnce], fun _ => ?_⟩
          rw [if_pos hOnce]
          refine ⟨_, (find?_write s _ _ _ old.id).trans (congrArg _ hFound), ?_⟩
          simp [changed]
        · rename_i hOnce
          cases h
          exact ⟨_, hFound, hCollectable, by rw [if_neg hOnce],
            fun hMode => absurd hMode hOnce⟩
  | _ => cases h

/-- A spent approval is not collected. -/
theorem id_ne_of_spent {s : Vault} {id : JsString} (h : Spent s id)
    (turns : List (Int × Turn)) :
    ∀ row ∈ collected turns s, row.id ≠ id := by
  induction turns generalizing s with
  | nil => simp [collected]
  | cons next turns ih =>
      rw [collected, List.forall_mem_append]
      refine ⟨fun row hRow => ?_, ih (spent_turn h _ _)⟩
      rintro rfl
      obtain ⟨spent, hFound, hSpent⟩ := h
      obtain ⟨old, hOld, hCollect, -⟩ :=
        collect_cases (Option.mem_toList.mp hRow)
      rw [hFound] at hOld
      cases hOld
      simp [collectable, hSpent] at hCollect

/-- **A once approval is collected once**, in every interleaving. -/
theorem collected_once (turns : List (Int × Turn)) (s : Vault)
    (id : JsString) :
    ((collected turns s).filter fun row =>
      row.id = id && row.mode = .once).length ≤ 1 := by
  induction turns generalizing s with
  | nil => simp [collected]
  | cons next turns ih =>
      rw [collected]
      cases hRow : (turn next.1 s next.2).2 with
      | none => exact ih _
      | some row =>
          rw [Option.toList_some, List.singleton_append, List.filter_cons]
          split
          · rename_i hOnce
            obtain ⟨old, -, -, rfl, hSpent⟩ := collect_cases hRow
            simp only [Bool.and_eq_true, decide_eq_true_eq] at hOnce
            obtain ⟨rfl, hMode⟩ := hOnce
            rw [List.filter_eq_nil_iff.mpr]
            · rfl
            · intro row hLater
              simp [id_ne_of_spent (hSpent hMode) turns row hLater]
          · exact ih _

end OpenApe.Ports.VaultApprovals
