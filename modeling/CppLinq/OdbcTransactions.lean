import CppLinq.Values
import CppLinq.StateRuns
import Mathlib.Logic.Function.Basic

/-!
# Transactions of the ODBC driver

`begin_transaction`, `commit` and `rollback` of `driver/odbc_connection.cpp`, used directly
or through a `Transaction` of `driver/connection.h`. When `SQLEndTran` fails, `commit` and
`rollback` turn autocommit on before they throw, and that commits the open transaction :
what was never committed becomes durable (`keptThroughout_iff`).
-/

namespace CppLinq

/-! ## The connection -/

/-- A connection, and the changes made over it. Of a call to ODBC the model takes its
outcome : the text of the error, or `none` for success. -/
structure OdbcConnection (D : Type) where
  displayName : String
  isOpen : Bool
  autocommit : Bool
  /-- The changes of the open transaction. -/
  pending : List D
  durable : List D

namespace OdbcConnection

variable {D : Type} (conn : OdbcConnection D)

/-- `SQLSetConnectAttr` of `SQL_ATTR_AUTOCOMMIT`. To turn it on commits the open
transaction. -/
def setAutocommit (on : Bool) (rc : Option String) : OdbcConnection D :=
  match rc, on with
  | some _, _ => conn
  | none, false => { conn with autocommit := false }
  | none, true =>
    { conn with autocommit := true, durable := conn.durable ++ conn.pending, pending := [] }

/-- `SQLEndTran`, which leaves the transaction open when it fails. -/
def endTran (commit : Bool) (rc : Option String) : OdbcConnection D :=
  match rc, commit with
  | some _, _ => conn
  | none, true => { conn with durable := conn.durable ++ conn.pending, pending := [] }
  | none, false => { conn with pending := [] }

/-- `SQLExecDirect` of a statement that makes a change. -/
def execDirect (change : D) (rc : Option String) : OdbcConnection D :=
  match rc with
  | some _ => conn
  | none =>
    if conn.autocommit then { conn with durable := conn.durable ++ [change] }
    else { conn with pending := conn.pending ++ [change] }

/-- Autocommit has no effect on changes when none is pending. -/
theorem setAutocommit_nothing {conn : OdbcConnection D} (h : conn.pending = []) (on : Bool)
    (rc : Option String) :
    (conn.setAutocommit on rc).pending = [] ∧
      (conn.setAutocommit on rc).durable = conn.durable := by
  cases rc <;> cases on <;> simp [setAutocommit, h]

/-- What the calls throw on a closed connection. -/
def notOpen : Exn :=
  .dbException (conn.displayName ++ " connection is not open")

/-- `execute`, where the driver manager answers `rc`. -/
def execute (change : D) (rc : Option String) : Except Exn Unit × OdbcConnection D :=
  if !conn.isOpen then
    (.error (.dbException ("Cannot execute statement: " ++ conn.displayName ++
      " connection is not open")), conn)
  else
    match rc with
    | some err => (.error (.dbException (conn.displayName ++ " execute failed: " ++ err)),
        conn.execDirect change rc)
    | none => (.ok (), conn.execDirect change rc)

/-- `begin_transaction`. -/
def beginTransaction (rc : Option String) : Except Exn Unit × OdbcConnection D :=
  if !conn.isOpen then (.error conn.notOpen, conn)
  else
    match rc with
    | some err => (.error (.dbException ("SQLSetConnectAttr(SQL_AUTOCOMMIT_OFF): " ++ err)),
        conn.setAutocommit false rc)
    | none => (.ok (), conn.setAutocommit false rc)

/-- `commit`, given the outcomes of `SQLEndTran` and of turning autocommit on. -/
def commit (rc attr : Option String) : Except Exn Unit × OdbcConnection D :=
  if !conn.isOpen then (.error conn.notOpen, conn)
  else
    match rc with
    | some err => (.error (.dbException ("SQLEndTran(SQL_COMMIT): " ++ err)),
        (conn.endTran true rc).setAutocommit true attr)
    | none => (.ok (), (conn.endTran true rc).setAutocommit true attr)

/-- `rollback`, and the answer to turning autocommit on. -/
def rollback (rc attr : Option String) : Except Exn Unit × OdbcConnection D :=
  if !conn.isOpen then (.error conn.notOpen, conn)
  else
    match rc with
    | some err => (.error (.dbException ("SQLEndTran(SQL_ROLLBACK): " ++ err)),
        (conn.endTran false rc).setAutocommit true attr)
    | none => (.ok (), (conn.endTran false rc).setAutocommit true attr)

end OdbcConnection

/-! ## Transactions and their changes -/

/-- A change, and the transaction it was made in, if any. -/
structure Change (C : Type) where
  content : C
  transaction : Option ℕ

/-- A connection with the account of its transactions. The connection has one transaction at
a time : it lasts from a `begin_transaction` to a `commit` or `rollback` that returns. -/
structure OdbcSystem (C : Type) where
  conn : OdbcConnection (Change C)
  /-- How many transactions were begun. -/
  begun : ℕ
  /-- The transaction in progress. -/
  current : Option ℕ
  /-- The transactions whose `commit` returned. -/
  committed : List ℕ
  /-- The `Transaction` objects that are alive, with their `committed_`. -/
  guards : ℕ → Option Bool

/-- A call of the connection, with the outcomes of the calls to ODBC. -/
inductive OdbcCall (C : Type)
  | beginTransaction (rc : Option String)
  | execute (content : C) (rc : Option String)
  | commit (rc attr : Option String)
  | rollback (rc attr : Option String)

/-- What a program does : calls of its own, and the life of `Transaction` objects. -/
inductive OdbcAction (C : Type)
  | direct (call : OdbcCall C)
  | construct (guard : ℕ) (rc : Option String)
  | commitGuard (guard : ℕ) (rc attr : Option String)
  | destroy (guard : ℕ) (rc attr : Option String)

namespace OdbcSystem

variable {C : Type}

/-- Make a call, and keep account of it. -/
def step (s : OdbcSystem C) : OdbcCall C → Except Exn Unit × OdbcSystem C
  | .beginTransaction rc =>
    match s.conn.beginTransaction rc with
    | (.ok (), conn) => (.ok (), { s with
        conn := conn
        begun := if s.current.isNone then s.begun + 1 else s.begun
        current := some (s.current.getD s.begun) })
    | (.error e, conn) => (.error e, { s with conn := conn })
  | .execute content rc =>
    let (r, conn) := s.conn.execute ⟨content, s.current⟩ rc
    (r, { s with conn := conn })
  | .commit rc attr =>
    match s.conn.commit rc attr with
    | (.ok (), conn) => (.ok (), { s with
        conn := conn
        current := none
        committed := s.current.toList ++ s.committed })
    | (.error e, conn) => (.error e, { s with conn := conn })
  | .rollback rc attr =>
    match s.conn.rollback rc attr with
    | (.ok (), conn) => (.ok (), { s with conn := conn, current := none })
    | (.error e, conn) => (.error e, { s with conn := conn })

end OdbcSystem

/-- The call that an action makes : a `Transaction` commits and rolls back once at most. -/
def OdbcAction.call {C : Type} (guards : ℕ → Option Bool) : OdbcAction C → Option (OdbcCall C)
  | .direct call => some call
  | .construct g rc => if guards g = none then some (.beginTransaction rc) else none
  | .commitGuard g rc attr => if guards g = some false then some (.commit rc attr) else none
  | .destroy g rc attr => if guards g = some false then some (.rollback rc attr) else none

/-- The `Transaction` objects after an action whose call returned, or threw. The destructor
swallows what `rollback` throws. -/
def OdbcAction.guardsAfter {C : Type} (guards : ℕ → Option Bool) (returned : Bool) :
    OdbcAction C → ℕ → Option Bool
  | .direct _ => guards
  | .construct g _ => if returned then Function.update guards g (some false) else guards
  | .commitGuard g _ _ => if returned then Function.update guards g (some true) else guards
  | .destroy g _ _ => Function.update guards g none

namespace OdbcSystem

variable {C : Type}

/-- What an action does. -/
def perform (s : OdbcSystem C) (a : OdbcAction C) : OdbcSystem C :=
  match a.call s.guards with
  | some call =>
    let (r, s') := s.step call
    { s' with guards := a.guardsAfter s.guards r.isOk }
  | none =>
    match a with
    | .destroy g _ _ => { s with guards := Function.update s.guards g none }
    | _ => s

/-- What was made in a transaction is durable only when `commit` returned for it. -/
def Kept (s : OdbcSystem C) : Prop :=
  ∀ d ∈ s.conn.durable, ∀ t, d.transaction = some t → t ∈ s.committed

/-- A call that makes durable only what is committed : it does not turn autocommit on after
an `SQLEndTran` that failed while changes of a transaction are pending, and executes no
statement of a transaction with autocommit on. -/
def Harmless (s : OdbcSystem C) : OdbcCall C → Prop
  | .beginTransaction _ => True
  | .execute _ rc => s.conn.isOpen = true → rc = none → s.conn.autocommit = true →
      s.current = none
  | .commit rc attr | .rollback rc attr => s.conn.isOpen = true → rc ≠ none → attr = none →
      ∀ d ∈ s.conn.pending, d.transaction = none

/-- The same for the call of an action. -/
def HarmlessAction (s : OdbcSystem C) (a : OdbcAction C) : Prop :=
  ∀ call, a.call s.guards = some call → s.Harmless call

/-- The account is consistent : pending changes belong to the transaction in progress, which
is not committed, and new transactions have new numbers. -/
structure Inv (s : OdbcSystem C) : Prop where
  pending : ∀ d ∈ s.conn.pending, ∀ t, d.transaction = some t → s.current = some t
  current : ∀ t, s.current = some t → t < s.begun ∧ t ∉ s.committed
  committed : ∀ t ∈ s.committed, t < s.begun

/-- A connection that was opened. -/
def opened (displayName : String) : OdbcSystem C where
  conn := {
    displayName := displayName
    isOpen := true
    autocommit := true
    pending := []
    durable := [] }
  begun := 0
  current := none
  committed := []
  guards := fun _ => none

variable {s : OdbcSystem C}

/-- A call over a closed connection changes nothing. -/
theorem step_closed (h : s.conn.isOpen = false) (call : OdbcCall C) : (s.step call).2 = s := by
  cases call <;>
    simp [step, OdbcConnection.beginTransaction, OdbcConnection.execute, OdbcConnection.commit,
      OdbcConnection.rollback, h]

theorem Inv.step_begin (h : s.Inv) (rc : Option String) :
    (s.step (.beginTransaction rc)).2.Inv ∧
      ((s.step (.beginTransaction rc)).2.Kept ↔ s.Kept) := by
  cases hopen : s.conn.isOpen with
  | false =>
    rw [step_closed hopen]
    exact ⟨h, Iff.rfl⟩
  | true =>
    cases rc with
    | some err =>
      simp only [step, OdbcConnection.beginTransaction, hopen, OdbcConnection.setAutocommit]
      exact ⟨h, Iff.rfl⟩
    | none =>
      simp only [step, OdbcConnection.beginTransaction, hopen, OdbcConnection.setAutocommit]
      refine ⟨?_, Iff.rfl⟩
      cases hcurrent : s.current with
      | none =>
        refine ⟨fun d hd t ht => ?_, ?_, fun t ht => ?_⟩
        · exact absurd (hcurrent.symm.trans (h.pending d hd t ht)) (Option.some_ne_none t).symm
        · rintro t ⟨⟩
          exact ⟨Nat.lt_succ_self _, fun ht => absurd (h.committed _ ht) (Nat.lt_irrefl _)⟩
        · exact Nat.lt_succ_of_lt (h.committed t ht)
      | some t =>
        refine ⟨fun d hd u hu => ?_, ?_, h.committed⟩
        · exact hcurrent.symm.trans (h.pending d hd u hu)
        · rintro u ⟨⟩
          exact h.current t hcurrent

theorem Inv.step_execute (h : s.Inv) (hkept : s.Kept) (content : C) (rc : Option String) :
    (s.step (.execute content rc)).2.Inv ∧
      ((s.step (.execute content rc)).2.Kept ↔ s.Harmless (.execute content rc)) := by
  cases hopen : s.conn.isOpen with
  | false =>
    rw [step_closed hopen]
    exact ⟨h, iff_of_true hkept fun hcontra => absurd (hopen.symm.trans hcontra) (by decide)⟩
  | true =>
    cases rc with
    | some err =>
      simp only [step, OdbcConnection.execute, hopen, OdbcConnection.execDirect]
      exact ⟨h, iff_of_true hkept fun _ hrc => absurd hrc (Option.some_ne_none _)⟩
    | none =>
      simp only [step, OdbcConnection.execute, hopen, OdbcConnection.execDirect, Harmless]
      cases hauto : s.conn.autocommit with
      | false =>
        refine ⟨⟨fun d hd t ht => ?_, h.current, h.committed⟩, iff_of_true hkept nofun⟩
        rcases List.mem_append.mp hd with hd | hd
        · exact h.pending d hd t ht
        · obtain rfl := List.mem_singleton.mp hd
          exact ht
      | true =>
        refine ⟨⟨h.pending, h.current, h.committed⟩, fun hkept' _ _ _ => ?_, fun hnone => ?_⟩
        · -- the change of a transaction in progress is durable at once
          refine Option.eq_none_iff_forall_ne_some.mpr fun t ht => ?_
          exact (h.current t ht).2 (hkept' ⟨content, s.current⟩ (by simp) t ht)
        · intro d hd t ht
          rcases List.mem_append.mp hd with hd | hd
          · exact hkept d hd t ht
          · obtain rfl := List.mem_singleton.mp hd
            exact absurd (ht.symm.trans (hnone trivial trivial rfl)) (Option.some_ne_none t)

/-- To turn autocommit on keeps uncommitted changes out of what is durable just when none
is pending. -/
theorem Inv.autocommitOn (h : s.Inv) (hkept : s.Kept) (attr : Option String) :
    Inv { s with conn := s.conn.setAutocommit true attr } ∧
      (Kept { s with conn := s.conn.setAutocommit true attr } ↔
        (attr = none → ∀ d ∈ s.conn.pending, d.transaction = none)) := by
  cases attr with
  | some err => exact ⟨h, iff_of_true hkept nofun⟩
  | none =>
    refine ⟨⟨nofun, h.current, h.committed⟩, fun hkept' _ d hd => ?_, fun hnone d hd t ht => ?_⟩
    · refine Option.eq_none_iff_forall_ne_some.mpr fun t ht => ?_
      exact (h.current t (h.pending d hd t ht)).2 (hkept' d (List.mem_append_right _ hd) t ht)
    · rcases List.mem_append.mp hd with hd | hd
      · exact hkept d hd t ht
      · exact absurd (ht.symm.trans (hnone rfl d hd)) (Option.some_ne_none t)

theorem step_commit_none (h : s.conn.isOpen = true) (attr : Option String) :
    (s.step (.commit none attr)).2 = { s with
      conn := (s.conn.endTran true none).setAutocommit true attr
      current := none
      committed := s.current.toList ++ s.committed } := by
  simp [step, OdbcConnection.commit, h]

theorem step_rollback_none (h : s.conn.isOpen = true) (attr : Option String) :
    (s.step (.rollback none attr)).2 = { s with
      conn := (s.conn.endTran false none).setAutocommit true attr
      current := none } := by
  simp [step, OdbcConnection.rollback, h]

theorem Inv.step_commit (h : s.Inv) (hkept : s.Kept) (rc attr : Option String) :
    (s.step (.commit rc attr)).2.Inv ∧
      ((s.step (.commit rc attr)).2.Kept ↔ s.Harmless (.commit rc attr)) := by
  cases hopen : s.conn.isOpen with
  | false =>
    rw [step_closed hopen]
    exact ⟨h, iff_of_true hkept fun hcontra => absurd (hopen.symm.trans hcontra) (by decide)⟩
  | true =>
    cases rc with
    | some err =>
      simp only [step, OdbcConnection.commit, hopen, OdbcConnection.endTran, Harmless]
      simpa using h.autocommitOn hkept attr
    | none =>
      -- all that is pending belongs to the transaction that is committed here
      obtain ⟨hpending, hdurable⟩ :=
        @OdbcConnection.setAutocommit_nothing _ (s.conn.endTran true none) rfl true attr
      rw [step_commit_none hopen]
      refine ⟨⟨?_, nofun, fun t ht => ?_⟩, iff_of_true ?_ fun _ hrc => absurd rfl hrc⟩
      · rw [hpending]
        exact nofun
      · rcases List.mem_append.mp ht with ht | ht
        · exact (h.current t (Option.mem_toList.mp ht)).1
        · exact h.committed t ht
      · intro d hd t ht
        replace hd := hdurable ▸ hd
        rcases List.mem_append.mp hd with hd | hd
        · exact List.mem_append_right _ (hkept d hd t ht)
        · exact List.mem_append_left _ (Option.mem_toList.mpr (h.pending d hd t ht))

theorem Inv.step_rollback (h : s.Inv) (hkept : s.Kept) (rc attr : Option String) :
    (s.step (.rollback rc attr)).2.Inv ∧
      ((s.step (.rollback rc attr)).2.Kept ↔ s.Harmless (.rollback rc attr)) := by
  cases hopen : s.conn.isOpen with
  | false =>
    rw [step_closed hopen]
    exact ⟨h, iff_of_true hkept fun hcontra => absurd (hopen.symm.trans hcontra) (by decide)⟩
  | true =>
    cases rc with
    | some err =>
      simp only [step, OdbcConnection.rollback, hopen, OdbcConnection.endTran, Harmless]
      simpa using h.autocommitOn hkept attr
    | none =>
      obtain ⟨hpending, hdurable⟩ :=
        @OdbcConnection.setAutocommit_nothing _ (s.conn.endTran false none) rfl true attr
      rw [step_rollback_none hopen]
      refine ⟨⟨?_, nofun, h.committed⟩, iff_of_true ?_ fun _ hrc => absurd rfl hrc⟩
      · rw [hpending]
        exact nofun
      · intro d hd
        exact hkept d (hdurable ▸ hd)

/-- What one call does : it keeps the account, and is harmless just when nothing but what is
committed becomes durable. -/
theorem Inv.step (h : s.Inv) (hkept : s.Kept) (call : OdbcCall C) :
    (s.step call).2.Inv ∧ ((s.step call).2.Kept ↔ s.Harmless call) := by
  cases call with
  | beginTransaction rc =>
    exact ⟨(h.step_begin rc).1, iff_of_true ((h.step_begin rc).2.mpr hkept) trivial⟩
  | execute content rc => exact h.step_execute hkept content rc
  | commit rc attr => exact h.step_commit hkept rc attr
  | rollback rc attr => exact h.step_rollback hkept rc attr

/-- The objects have no part in the account. -/
theorem perform_spec (s : OdbcSystem C) (a : OdbcAction C) :
    ∃ guards, s.perform a = match a.call s.guards with
      | some call => { (s.step call).2 with guards := guards }
      | none => { s with guards := guards } := by
  unfold perform
  cases a.call s.guards with
  | some call => exact ⟨_, rfl⟩
  | none => cases a <;> exact ⟨_, rfl⟩

theorem Inv.perform (h : s.Inv) (hkept : s.Kept) (a : OdbcAction C) :
    (s.perform a).Inv ∧ ((s.perform a).Kept ↔ s.HarmlessAction a) := by
  obtain ⟨guards, hperform⟩ := s.perform_spec a
  rw [hperform, HarmlessAction]
  cases a.call s.guards with
  | some call =>
    obtain ⟨hinv, hiff⟩ := h.step hkept call
    simp only [Option.some.injEq, forall_eq']
    exact ⟨⟨hinv.pending, hinv.current, hinv.committed⟩, hiff⟩
  | none => exact ⟨⟨h.pending, h.current, h.committed⟩, iff_of_true hkept nofun⟩

theorem inv_opened (displayName : String) : (opened (C := C) displayName).Inv :=
  ⟨nofun, nofun, nofun⟩

/-- Throughout a run over a new connection only committed transactions are durable, just when
all calls of the run are harmless. -/
theorem keptThroughout_iff (displayName : String) (actions : List (OdbcAction C)) :
    Throughout perform Kept (opened displayName) actions ↔
      AllSteps perform HarmlessAction (opened displayName) actions :=
  throughout_iff (fun h hkept a => (h.perform hkept a).1)
    (fun h hkept a => (h.perform hkept a).2) actions (inv_opened displayName) nofun

/-- A `Transaction` whose `commit` fails, and whose destructor rolls back. -/
def failedCommit : List (OdbcAction String) :=
  [.construct 0 none, .direct (.execute "UPDATE accounts" none),
    .commitGuard 0 (some "serialization failure") none, .destroy 0 none none]

/-- The update is durable, though the commit threw. -/
theorem failedCommit_durable : ¬ Throughout perform Kept (opened "Oracle") failedCommit := by
  rintro ⟨-, -, -, hkept, -⟩
  have hcommitted := hkept ⟨"UPDATE accounts", some 0⟩ (List.Mem.head _) 0 rfl
  exact absurd hcommitted (List.not_mem_nil)

end OdbcSystem

end CppLinq
