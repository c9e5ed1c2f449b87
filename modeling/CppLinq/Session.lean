import CppLinq.SqlGenerator

/-!
# Calls to a driver

A connection is used through `IConnection` and `IPreparedStatement` (`driver/connection.h`).
`Session` is a computation that makes such calls and keeps the list of them, also when it
throws. What a call answers is the driver's affair : `Driver` says, for every history,
which calls throw. Rows are not read here, so the readers that queries return are left out.
-/

namespace CppLinq

/-- A call of `IConnection` or of the statement prepared last. -/
inductive DriverCall
  | prepare (sql : Text)
  | setTimeout (seconds : ℕ)
  | setStopToken
  | reset
  | bind (position : ℕ) (value : BoundValue)
  | executeQuery
  | executeNonQuery
  | executeQueryDirect (sql : Text)
  | executeNonQueryDirect (sql : Text)
  | insertManyBatch (sql : Text) (flatParams : List BoundValue) (colCount rowCount : ℕ)
  | beginTransaction
  | commit
  | rollback
  deriving DecidableEq, Repr

/-- The calls that run a statement. -/
def DriverCall.Executes : DriverCall → Prop
  | .executeQuery | .executeNonQuery => True
  | .executeQueryDirect _ | .executeNonQueryDirect _ => True
  | .insertManyBatch _ _ _ _ => True
  | _ => False

/-- The exception of a call after the given calls, if it throws. -/
abbrev Driver := List DriverCall → DriverCall → Option Exn

/-- A computation that makes calls. -/
abbrev Session := ExceptT Exn (StateM (List DriverCall))

/-- Make a call. -/
def call (driver : Driver) (c : DriverCall) : Session Unit := do
  let log ← get
  set (log ++ [c])
  match driver log c with
  | some e => throw e
  | none => return

/-- Make calls one after another. -/
def callAll (driver : Driver) : List DriverCall → Session Unit
  | [] => return
  | c :: cs => do
    call driver c
    callAll driver cs

/-- The calls that bind values to positions from `k` on. -/
def bindCalls (k : ℕ) : List BoundValue → List DriverCall
  | [] => []
  | v :: vs => .bind k v :: bindCalls (k + 1) vs

/-- The driver that accepts every call. -/
def Driver.accepting : Driver :=
  fun _ _ => none

theorem bindCalls_append (k : ℕ) (vs ws : List BoundValue) :
    bindCalls k (vs ++ ws) = bindCalls k vs ++ bindCalls (k + vs.length) ws := by
  induction vs generalizing k with
  | nil => simp [bindCalls]
  | cons v vs ih => simp [bindCalls, ih, Nat.add_assoc, Nat.add_comm 1]

theorem mem_bindCalls {c : DriverCall} {k : ℕ} {vs : List BoundValue} :
    c ∈ bindCalls k vs ↔ ∃ i v, vs[i]? = some v ∧ c = .bind (k + i) v := by
  induction vs generalizing k with
  | nil => simp [bindCalls]
  | cons w vs ih =>
    rw [bindCalls, List.mem_cons, ih]
    constructor
    · rintro (rfl | ⟨i, v, hv, rfl⟩)
      · exact ⟨0, w, rfl, rfl⟩
      · exact ⟨i + 1, v, by simpa using hv, by rw [Nat.add_assoc, Nat.add_comm 1]⟩
    · rintro ⟨_ | i, v, hv, rfl⟩
      · exact Or.inl (by simp_all)
      · exact Or.inr ⟨i, v, by simpa using hv, by rw [Nat.add_assoc, Nat.add_comm 1]⟩

theorem Session.bind_eq {α β : Type} (g : Session α) (h : α → Session β)
    (log : List DriverCall) :
    (g >>= h) log = match g log with
      | (.ok a, log') => h a log'
      | (.error e, log') => (.error e, log') := by
  have hrun : (g >>= h) log = ExceptT.bindCont h (g log).1 (g log).2 := rfl
  rw [hrun]
  rcases g log with ⟨_ | _, _⟩ <;> rfl

/-- Nothing runs after an exception. -/
@[simp] theorem Session.throw_bind {α β : Type} (e : Exn) (h : α → Session β) :
    (throw e : Session α) >>= h = throw e := by
  funext log
  rw [Session.bind_eq]
  rfl

theorem callAll_append (driver : Driver) (cs ds : List DriverCall) :
    callAll driver (cs ++ ds) = (do callAll driver cs; callAll driver ds) := by
  induction cs with
  | nil => simp [callAll]
  | cons c cs ih => simp [callAll, ih]

@[simp] theorem callAll_singleton (driver : Driver) (c : DriverCall) :
    callAll driver [c] = call driver c := by
  simp [callAll]

/-- A call is kept whether or not it throws. -/
theorem call_eq (driver : Driver) (c : DriverCall) (log : List DriverCall) :
    call driver c log = (match driver log c with
      | some e => .error e
      | none => .ok (), log ++ [c]) := by
  have h : call driver c log = (match driver log c with
      | some e => (throw e : Session Unit)
      | none => return) (log ++ [c]) := rfl
  rw [h]
  cases driver log c <;> rfl

/-- The calls made are a beginning of those asked for. -/
theorem callAll_log (driver : Driver) (cs : List DriverCall) (log : List DriverCall) :
    ∃ ds, ds <+: cs ∧ (callAll driver cs log).2 = log ++ ds := by
  induction cs generalizing log with
  | nil => exact ⟨[], List.nil_prefix, (List.append_nil log).symm⟩
  | cons c cs ih =>
    rw [callAll, Session.bind_eq, call_eq]
    cases driver log c with
    | some e => exact ⟨[c], by simp, rfl⟩
    | none =>
      obtain ⟨ds, hds, hlog⟩ := ih (log ++ [c])
      exact ⟨c :: ds, by simpa using hds, by simpa using hlog⟩

/-- The accepting driver takes every call. -/
theorem callAll_accepting (cs : List DriverCall) (log : List DriverCall) :
    callAll .accepting cs log = (.ok (), log ++ cs) := by
  induction cs generalizing log with
  | nil => rw [List.append_nil]; rfl
  | cons c cs ih =>
    rw [callAll, Session.bind_eq, call_eq]
    simpa [Driver.accepting] using ih (log ++ [c])

end CppLinq
