import CppLinq.PoolAccounting

/-!
# Waiting for a connection

The wait of `acquire` and `try_acquire` (`driver/connection_pool.h`) in the steps of a condition
variable : a thread that finds the predicate false still has the mutex, then blocks and lets go
of it, is woken, and takes the mutex again. `request_stop` sets the flag and runs the callbacks
that are registered, and needs the mutex for neither.

`PoolWait` refines `PoolStep` (`refines`). In it a request to stop can fall between
the check and the block, and a notification can wake a thread that leaves without the
connection. Runs in which neither happens lose no cancellation (`cancellation_takes_effect`) and
strand no connection (`not_stranded`).
-/

namespace CppLinq

/-! ## Steps -/

/-- Where a thread is in `wait_for`. -/
inductive WaitPhase
  | away
  /-- It has found the predicate false, and has the mutex still. -/
  | blocking
  | blocked
  /-- It was woken, and has yet to take the mutex. -/
  | awake
  deriving DecidableEq, Repr

/-- A pool, with the phases of its threads and the stop callbacks. -/
structure PoolWaits where
  pool : PoolSystem
  phases : List WaitPhase
  /-- The calls, with their tokens, that have made their first check and have yet to construct
  the callback. -/
  registering : List (ℕ × ℕ)
  /-- The callbacks that were constructed, and neither run nor destroyed. -/
  registered : List (ℕ × ℕ)
  /-- The tokens whose callbacks `request_stop` is running. -/
  stopping : List ℕ

/-- Threads in a call that may wait. -/
def PoolThread.isRequesting : PoolThread → Bool
  | .entering _ _ | .waiting _ _ => true
  | _ => false

/-- The thread is in no call. -/
def PoolThread.isOutside : PoolThread → Bool
  | .outside _ => true
  | _ => false

/-- `notify_all` wakes all blocked threads. -/
def notifyAll (phases : List WaitPhase) : List WaitPhase :=
  phases.map fun p => if p = .blocked then .awake else p

/-- `notify_one` wakes any of the blocked threads, if there is one. -/
inductive NotifyOne : List WaitPhase → List WaitPhase → Prop
  | wakes {phases : List WaitPhase} {i : ℕ} (h : phases[i]? = some .blocked) :
    NotifyOne phases (phases.set i .awake)
  | nobody {phases : List WaitPhase} (h : .blocked ∉ phases) : NotifyOne phases phases

/-- The steps that take no mutex of the pool. -/
inductive Unlocked : PoolSystem → PoolSystem → Prop
  | lose (s : PoolSystem) (c : ConnId) : Unlocked s (s.setOpen c false)
  | reopen {s : PoolSystem} {c : ConnId} (h : c ∈ s.leased) : Unlocked s (s.setOpen c true)
  | default (s : PoolSystem) : Unlocked s { s with leases := s.leases ++ [none] }
  | created {s : PoolSystem} {i : ℕ} (h : s.threads[i]? = some .creating) :
    Unlocked s (s.created i)
  | createFails {s : PoolSystem} {i : ℕ} (h : s.threads[i]? = some .creating) (e : Exn) :
    Unlocked s (s.setThread i (.createFailed e))
  | moveConstruct {s : PoolSystem} {i : ℕ} {result : Except Exn (Option ℕ)}
    (h : s.threads[i]? = some (.outside result)) (k : ℕ) : Unlocked s (s.moveConstruct k)
  /-- The object has no connection to release. -/
  | moveAssign {s : PoolSystem} {i : ℕ} {result : Except Exn (Option ℕ)}
    (h : s.threads[i]? = some (.outside result)) {target : ℕ} (ht : target < s.leases.length)
    {k : ℕ} (hnone : target = k ∨ s.leases[target]?.join = none) :
    Unlocked s (s.moveAssign i target k)
  | closeNext {s : PoolSystem} {i : ℕ} {c : ConnId} {toClose : List ConnId}
    (h : s.threads[i]? = some (.closing (c :: toClose))) (throws : Bool) :
    Unlocked s (s.closeNext i c toClose throws)
  | closed {s : PoolSystem} {i : ℕ} (h : s.threads[i]? = some (.closing [])) :
    Unlocked s (s.setThread i (.outside (.ok none)))
  | closeReturned {s : PoolSystem} {i : ℕ} {c : ConnId}
    (h : s.threads[i]? = some (.closingReturned c)) (throws : Bool) :
    Unlocked s ((s.closeConnection c throws).setThread i (.outside (.ok none)))

/-- The critical sections that end with `notify_one`. -/
inductive Notifying : PoolSystem → PoolSystem → Prop
  | release {s : PoolSystem} {i k : ℕ} {result : Except Exn (Option ℕ)} {c : ConnId}
    (h : s.threads[i]? = some (.outside result)) (hc : s.leases[k]?.join = some c) :
    Notifying s (s.release i k)
  | moveAssign {s : PoolSystem} {i target k : ℕ} {result : Except Exn (Option ℕ)} {c : ConnId}
    (h : s.threads[i]? = some (.outside result)) (hne : target ≠ k)
    (hc : s.leases[target]?.join = some c) : Notifying s (s.moveAssign i target k)
  | creationFailed {s : PoolSystem} {i : ℕ} {e : Exn}
    (h : s.threads[i]? = some (.createFailed e)) : Notifying s (s.creationFailed i e)

namespace PoolWaits

/-- The pool after the constructor and `initialize()`. -/
def started (config : PoolConfig) : PoolWaits :=
  ⟨.started config, [], [], [], []⟩

/-- Between two steps only a thread that is about to block has the mutex. -/
def MutexFree (s : PoolWaits) : Prop :=
  .blocking ∉ s.phases

/-- A thread calls `acquire` or `try_acquire`. -/
def request (s : PoolWaits) (i : ℕ) (r : Request) (token : Option ℕ) : PoolWaits :=
  { s with
    pool := s.pool.request i r token
    registering :=
      if s.pool.stopRequested token then s.registering
      else (token.toList.map fun k => (i, k)) ++ s.registering }

/-- The constructor of a callback runs it if the flag is set already. -/
def construct (s : PoolWaits) (i k : ℕ) : PoolWaits :=
  { s with
    registering := s.registering.erase (i, k)
    registered := if k ∈ s.pool.stopped then s.registered else (i, k) :: s.registered
    phases := if k ∈ s.pool.stopped then notifyAll s.phases else s.phases }

/-- A call that takes the mutex for the first time goes on, or is about to block. -/
def enter (s : PoolWaits) (i : ℕ) (r : Request) (token : Option ℕ) : PoolWaits :=
  { s with
    pool := s.pool.enter i r token
    phases := s.phases.set i
      (if (s.pool.state.enter r (s.pool.stopRequested token)).isSome then .away else .blocking) }

/-- A call that takes the mutex again, after it was woken or its time was up. -/
def recheck (s : PoolWaits) (i : ℕ) (r : Request) (token : Option ℕ) (timedOut : Bool) :
    PoolWaits :=
  { s with
    pool := s.pool.wake i r token timedOut
    phases := s.phases.set i
      (if (s.pool.state.wait r (s.pool.stopRequested token) timedOut).isSome then .away
        else .blocking) }

/-- `close`, which wakes all blocked threads. -/
def close (s : PoolWaits) (i : ℕ) : PoolWaits :=
  { s with
    pool := s.pool.close i
    phases := if s.pool.state.closed then s.phases else notifyAll s.phases }

/-- `request_stop` for a token that was not signalled, before it runs the callbacks. -/
def requestStop (s : PoolWaits) (k : ℕ) : PoolWaits :=
  { s with pool := { s.pool with stopped := k :: s.pool.stopped }, stopping := k :: s.stopping }

/-- `request_stop` runs a callback. -/
def runCallback (s : PoolWaits) (i k : ℕ) : PoolWaits :=
  { s with registered := s.registered.erase (i, k), phases := notifyAll s.phases }

end PoolWaits

/-- What a condition on steps may refer to. -/
inductive WaitLabel
  | callback (i k : ℕ)
  | recheck (i : ℕ)
  | other

/-- A step of one of the threads, or of a stop callback. -/
inductive PoolWait : PoolWaits → WaitLabel → PoolWaits → Prop
  | spawn (s : PoolWaits) : PoolWait s .other
    { s with
      pool := { s.pool with threads := s.pool.threads ++ [.outside (.ok none)] }
      phases := s.phases ++ [.away] }
  | unlocked {s : PoolWaits} {pool : PoolSystem} (h : Unlocked s.pool pool) :
    PoolWait s .other { s with pool }
  | notifying {s : PoolWaits} {pool : PoolSystem} {phases : List WaitPhase} (hfree : s.MutexFree)
    (h : Notifying s.pool pool) (hphases : NotifyOne s.phases phases) :
    PoolWait s .other { s with pool, phases }
  | close {s : PoolWaits} {i : ℕ} {result : Except Exn (Option ℕ)} (hfree : s.MutexFree)
    (h : s.pool.threads[i]? = some (.outside result)) : PoolWait s .other (s.close i)
  | request {s : PoolWaits} {i : ℕ} {result : Except Exn (Option ℕ)}
    (h : s.pool.threads[i]? = some (.outside result)) (hdone : ∀ k, (i, k) ∉ s.registered)
    (r : Request) (token : Option ℕ) : PoolWait s .other (s.request i r token)
  | construct {s : PoolWaits} {i k : ℕ} (h : (i, k) ∈ s.registering) :
    PoolWait s .other (s.construct i k)
  | enter {s : PoolWaits} {i : ℕ} {r : Request} {token : Option ℕ} (hfree : s.MutexFree)
    (h : s.pool.threads[i]? = some (.entering r token)) (hdone : ∀ k, (i, k) ∉ s.registering) :
    PoolWait s .other (s.enter i r token)
  | block {s : PoolWaits} {i : ℕ} (h : s.phases[i]? = some .blocking) :
    PoolWait s .other { s with phases := s.phases.set i .blocked }
  /-- Its time is up, or it wakes for no reason. -/
  | wakeUp {s : PoolWaits} {i : ℕ} (h : s.phases[i]? = some .blocked) :
    PoolWait s .other { s with phases := s.phases.set i .awake }
  | recheck {s : PoolWaits} {i : ℕ} {r : Request} {token : Option ℕ} (hfree : s.MutexFree)
    (h : s.pool.threads[i]? = some (.waiting r token)) (hphase : s.phases[i]? = some .awake)
    (timedOut : Bool) : PoolWait s (.recheck i) (s.recheck i r token timedOut)
  /-- The destructor of a callback, when the call is over. -/
  | destruct {s : PoolWaits} {i k : ℕ} {result : Except Exn (Option ℕ)}
    (h : s.pool.threads[i]? = some (.outside result)) (hk : (i, k) ∈ s.registered) :
    PoolWait s .other { s with registered := s.registered.erase (i, k) }
  | requestStop {s : PoolWaits} {k : ℕ} (h : k ∉ s.pool.stopped) :
    PoolWait s .other (s.requestStop k)
  | runCallback {s : PoolWaits} {i k : ℕ} (h : k ∈ s.stopping) (hk : (i, k) ∈ s.registered) :
    PoolWait s (.callback i k) (s.runCallback i k)
  | stopDone {s : PoolWaits} {k : ℕ} (h : k ∈ s.stopping) (hk : ∀ i, (i, k) ∉ s.registered) :
    PoolWait s .other { s with stopping := s.stopping.erase k }

/-! ## The coarser steps -/

/-- What a thread does without the mutex is a step of the pool. -/
theorem Unlocked.poolStep {s t : PoolSystem} (h : Unlocked s t) : ∃ l, PoolStep s l t := by
  cases h with
  | lose c => exact ⟨_, .lose s c⟩
  | reopen h => exact ⟨_, .reopen h⟩
  | default => exact ⟨_, .default s⟩
  | created h => exact ⟨_, .created h⟩
  | createFails h e => exact ⟨_, .createFails h e⟩
  | moveConstruct h k => exact ⟨_, .moveConstruct h k⟩
  | moveAssign h ht hnone => exact ⟨_, .moveAssign h ht _⟩
  | closeNext h throws => exact ⟨_, .closeNext h throws⟩
  | closed h => exact ⟨_, .closed h⟩
  | closeReturned h throws => exact ⟨_, .closeReturned h throws⟩

/-- What wakes threads is a step of the pool. -/
theorem Notifying.poolStep {s t : PoolSystem} (h : Notifying s t) : ∃ l, PoolStep s l t := by
  cases h with
  | release h hc => exact ⟨_, .release h _⟩
  | @moveAssign i target k result c h hne hc =>
    have ht : target < s.leases.length := by
      by_contra hlt
      rw [List.getElem?_eq_none (Nat.le_of_not_lt hlt)] at hc
      contradiction
    exact ⟨_, .moveAssign h ht k⟩
  | creationFailed h => exact ⟨_, .creationFailed h⟩

/-- A step is a step of the pool, or leaves the pool as it is. -/
theorem PoolWait.simulates {s t : PoolWaits} {a : WaitLabel} (h : PoolWait s a t) :
    ∃ ls, Run PoolStep s.pool ls t.pool := by
  have hone {pool : PoolSystem} {l : Option ℕ} (h : PoolStep s.pool l pool) :
      ∃ ls, Run PoolStep s.pool ls pool := ⟨[l], .cons h .nil⟩
  cases h with
  | spawn => exact hone (.spawn _)
  | unlocked h => exact hone h.poolStep.choose_spec
  | notifying hfree h hphases => exact hone h.poolStep.choose_spec
  | close hfree h => exact hone (.close h)
  | request h hdone r token => exact hone (.request h r token)
  | enter hfree h hdone => exact hone (.enter h)
  | recheck hfree h hphase timedOut => exact hone (.wake h timedOut)
  | requestStop h => exact hone (.requestStop _ _)
  | _ => exact ⟨[], .nil⟩

/-- Whatever its threads wait for, and whichever of them are woken, the pool gets only where
the steps of a pool bring it, and its accounts are kept. -/
theorem PoolWaits.refines {config : PoolConfig} {as : List WaitLabel} {s : PoolWaits}
    (h : Run PoolWait (.started config) as s) :
    (∃ ls, Run PoolStep (PoolSystem.started config) ls s.pool) ∧ s.pool.Accounted := by
  obtain ⟨ls, hrun⟩ := h.simulate (f := pool) PoolWait.simulates
  refine ⟨⟨ls, hrun⟩, ?_⟩
  exact hrun.invariant (fun hs => hs.step) (PoolSystem.accounted_started config)

/-! ## What the steps keep -/

section Lists

variable {α : Type} {l : List α} {i j : ℕ} {x y : α}

theorem getElem?_concat_iff (h : x ≠ y) : (l ++ [y])[i]? = some x ↔ l[i]? = some x := by
  rw [List.getElem?_append]
  split
  · exact Iff.rfl
  · rename_i hi
    rw [List.getElem?_eq_none (Nat.le_of_not_lt hi), List.getElem?_singleton]
    split <;> simp [Ne.symm h]

theorem getElem?_set_cases (h : (l.set i x)[j]? = some y) :
    i = j ∧ y = x ∨ i ≠ j ∧ l[j]? = some y := by
  rw [List.getElem?_set] at h
  split at h
  · rename_i hij
    split at h
    · exact .inl ⟨hij, (Option.some.inj h).symm⟩
    · contradiction
  · rename_i hij
    exact .inr ⟨hij, h⟩

end Lists

namespace PoolSystem

/-- The calls that may wait are the same. -/
structure SameCalls (s t : PoolSystem) : Prop where
  threads_iff : ∀ (i : ℕ) (p : PoolThread), p.isRequesting = true →
    (t.threads[i]? = some p ↔ s.threads[i]? = some p)
  stopped_eq : t.stopped = s.stopped

variable {s t : PoolSystem} {i : ℕ} {p q : PoolThread}

/-- A thread that stays out of calls changes no other thread's call. -/
theorem sameCalls_set (h : s.threads[i]? = some p) (hp : p.isRequesting = false)
    (hq : q.isRequesting = false) (ht : t.threads = s.threads.set i q)
    (hstopped : t.stopped = s.stopped) : s.SameCalls t := by
  refine ⟨fun j p' hp' => ?_, hstopped⟩
  rw [ht]
  by_cases hij : i = j
  · subst hij
    constructor
    · intro h'
      rcases getElem?_set_cases h' with ⟨-, rfl⟩ | ⟨hne, -⟩
      · rw [hp'] at hq
        contradiction
      · contradiction
    · intro h'
      rw [h] at h'
      cases h'
      rw [hp'] at hp
      contradiction
  · rw [List.getElem?_set_ne hij]

theorem sameCalls_of_eq (ht : t.threads = s.threads) (hstopped : t.stopped = s.stopped) :
    s.SameCalls t :=
  ⟨fun _ _ _ => by rw [ht], hstopped⟩

/-- What a thread goes on as, when it has decided. -/
theorem decide_spec (s : PoolSystem) (i : ℕ) (d : ConnectionPoolState × Decision) :
    ∃ q, q.isRequesting = false ∧ (s.decide i d).threads = s.threads.set i q ∧
      (s.decide i d).stopped = s.stopped ∧ (s.decide i d).state = d.1 := by
  obtain ⟨state, d⟩ := d
  cases d with
  | refused thrown =>
    cases thrown with
    | none => exact ⟨_, rfl, rfl, rfl, rfl⟩
    | some e => exact ⟨_, rfl, rfl, rfl, rfl⟩
  | pooled c => exact ⟨_, rfl, rfl, rfl, rfl⟩
  | creating => exact ⟨_, rfl, rfl, rfl, rfl⟩

/-- The threads after a release of an object that has a connection. -/
theorem release_spec {k : ℕ} {c : ConnId} (hc : s.leases[k]?.join = some c) :
    ∃ q, q.isRequesting = false ∧ (s.release i k).threads = s.threads.set i q ∧
      (s.release i k).stopped = s.stopped ∧
      (s.release i k).state = (s.state.returnConnection c (s.isOpen c)).1 := by
  rw [release, hc]
  refine ⟨_, ?_, rfl, rfl, rfl⟩
  split <;> rfl

/-- The threads after `close` has let go of the mutex. -/
theorem close_spec (s : PoolSystem) (i : ℕ) : (s.close i).stopped = s.stopped ∧
    (s.close i).state.closed = true ∧
    ∃ q, q.isRequesting = false ∧ (s.close i).threads = s.threads.set i q := by
  unfold close ConnectionPoolState.close
  by_cases hclosed : s.state.closed = true
  · simp only [hclosed, if_true]
    exact ⟨rfl, hclosed, _, rfl, rfl⟩
  · simp only [hclosed]
    exact ⟨rfl, rfl, _, rfl, rfl⟩

end PoolSystem

theorem Unlocked.sameCalls {s t : PoolSystem} (h : Unlocked s t) :
    s.SameCalls t ∧ t.state = s.state := by
  cases h with
  | lose c => exact ⟨PoolSystem.sameCalls_of_eq rfl rfl, rfl⟩
  | reopen h => exact ⟨PoolSystem.sameCalls_of_eq rfl rfl, rfl⟩
  | default => exact ⟨PoolSystem.sameCalls_of_eq rfl rfl, rfl⟩
  | moveConstruct h k => exact ⟨PoolSystem.sameCalls_of_eq rfl rfl, rfl⟩
  | created h => exact ⟨PoolSystem.sameCalls_set h rfl rfl rfl rfl, rfl⟩
  | createFails h e => exact ⟨PoolSystem.sameCalls_set h rfl rfl rfl rfl, rfl⟩
  | closed h => exact ⟨PoolSystem.sameCalls_set h rfl rfl rfl rfl, rfl⟩
  | closeReturned h throws => exact ⟨PoolSystem.sameCalls_set h rfl rfl rfl rfl, rfl⟩
  | @moveAssign i result h target ht k hnone =>
    unfold PoolSystem.moveAssign
    split
    · exact ⟨PoolSystem.sameCalls_of_eq rfl rfl, rfl⟩
    · rename_i hne
      have hrelease : s.release i target = s := by
        rw [PoolSystem.release, hnone.resolve_left hne]
      rw [hrelease]
      exact ⟨PoolSystem.sameCalls_of_eq rfl rfl, rfl⟩
  | closeNext h throws =>
    unfold PoolSystem.closeNext
    split
    · exact ⟨PoolSystem.sameCalls_set h rfl rfl rfl rfl, rfl⟩
    · exact ⟨PoolSystem.sameCalls_set h rfl rfl rfl rfl, rfl⟩

/-! ## Free connections -/

namespace ConnectionPoolState

variable {s s' : ConnectionPoolState} {r : Request} {d : Decision} {stopped timedOut : Bool}

/-- The connections that a call could get now : those idle, and those not created yet. -/
def free (s : ConnectionPoolState) : ℕ :=
  s.idleConnections.length + (s.config.maxConnections.toNat - s.totalConnections.toNat)

/-- A connection is free : one is idle, or one more may be made. -/
theorem free_pos_iff : 0 < s.free ↔
    s.idleConnections ≠ [] ∨ s.totalConnections < s.config.maxConnections := by
  rw [free, UInt64.lt_iff_toNat_lt, ← List.length_pos_iff]
  omega

/-- A thread that finds the predicate false could get no connection. -/
theorem of_not_ready (h : s.ready stopped = false) :
    stopped = false ∧ s.closed = false ∧ s.free = 0 := by
  simp only [ready, Bool.or_eq_false_iff, Bool.not_eq_false', List.isEmpty_iff,
    decide_eq_false_iff_not] at h
  refine ⟨h.1.1.1, h.1.1.2, ?_⟩
  by_contra hfree
  rcases free_pos_iff.mp (Nat.pos_of_ne_zero hfree) with hidle | hlt
  · exact hidle h.1.2
  · exact h.2 hlt

/-- A thread that goes on waiting found nothing free. -/
theorem of_wait_none (h : s.wait r stopped timedOut = none) :
    stopped = false ∧ s.closed = false ∧ s.free = 0 := by
  unfold wait at h
  split at h
  · contradiction
  · rename_i hready
    exact of_not_ready (Bool.not_eq_true _ ▸ hready)

/-- A thread that begins to wait found nothing free. -/
theorem of_enter_none (h : s.enter r stopped = none) :
    stopped = false ∧ s.closed = false ∧ s.free = 0 := by
  unfold enter at h
  split at h
  · contradiction
  · exact of_wait_none h

theorem free_pooled {c : ConnId} (hidle : c ∈ s.idleConnections.getLast?) :
    ({ s with idleConnections := s.idleConnections.dropLast } : ConnectionPoolState).free + 1 ≤
      s.free := by
  have hlength := congrArg List.length (List.dropLast_append_getLast? c hidle)
  rw [List.length_append, List.length_singleton] at hlength
  change s.idleConnections.dropLast.length +
    (s.config.maxConnections.toNat - s.totalConnections.toNat) + 1 ≤ s.free
  rw [free]
  omega

theorem free_creating (hlt : s.totalConnections < s.config.maxConnections) :
    ({ s with totalConnections := s.totalConnections + 1 } : ConnectionPoolState).free + 1 ≤
      s.free := by
  have hlt' := UInt64.lt_iff_toNat_lt.mp hlt
  change s.idleConnections.length +
    (s.config.maxConnections.toNat - (s.totalConnections + 1).toNat) + 1 ≤ s.free
  rw [toNat_add_one hlt, free]
  omega

/-- A decision keeps the flag, and takes a connection or none. -/
theorem Decides.spec (h : s.Decides s' d) :
    s'.closed = s.closed ∧ (s' = s ∨ s'.free + 1 ≤ s.free) := by
  cases h with
  | refused thrown => exact ⟨rfl, .inl rfl⟩
  | pooled hclosed hidle => exact ⟨rfl, .inr (free_pooled hidle)⟩
  | creating hclosed hlt => exact ⟨rfl, .inr (free_creating hlt)⟩

/-- No decision frees a connection. -/
theorem Decides.free_le (h : s.Decides s' d) : s'.free ≤ s.free := by
  rcases h.spec.2 with rfl | hlt
  · exact Nat.le_refl _
  · exact Nat.le_of_succ_le hlt

/-- A call that was woken leaves without a connection only if it was cancelled, the pool is
closed, or there is none. -/
theorem wait_spec (h : s.wait r stopped timedOut = some (s', d)) :
    s'.free + 1 ≤ s.free ∨ s' = s ∧ (stopped = true ∨ s.closed = true ∨ s.free = 0) := by
  unfold wait at h
  split at h
  · unfold afterWait at h
    split at h
    · rename_i hstopped
      cases h
      exact .inr ⟨rfl, .inl hstopped⟩
    split at h
    · rename_i hclosed
      cases h
      exact .inr ⟨rfl, .inr (.inl hclosed)⟩
    rename_i hclosed
    split at h
    · contradiction
    split at h
    · rename_i hlast
      cases h
      exact .inl (free_pooled hlast)
    rename_i hlast
    split at h
    · rename_i hlt
      cases h
      exact .inl (free_creating hlt)
    · rename_i hlt
      cases h
      refine .inr ⟨rfl, .inr (.inr ?_)⟩
      by_contra hfree
      rcases free_pos_iff.mp (Nat.pos_of_ne_zero hfree) with hidle | hlt'
      · exact hidle (List.getLast?_eq_none_iff.mp hlast)
      · exact hlt hlt'
  · rename_i hready
    obtain ⟨-, -, hfree⟩ := of_not_ready (Bool.not_eq_true _ ▸ hready)
    split at h
    · have hd := decides_afterWait s r stopped false
      rw [Option.some.inj h] at hd
      rcases hd.spec.2 with heq | hlt
      · exact .inr ⟨heq, .inr (.inr hfree)⟩
      · exact .inl hlt
    · contradiction

/-- Counting down frees one connection at most. -/
theorem free_sub_one (s : ConnectionPoolState) :
    ({ s with totalConnections := s.totalConnections - 1 } : ConnectionPoolState).free ≤
      s.free + 1 := by
  change s.idleConnections.length +
    (s.config.maxConnections.toNat - (s.totalConnections - 1).toNat) ≤ s.free + 1
  rw [free]
  by_cases hzero : s.totalConnections.toNat = 0
  · omega
  · rw [toNat_sub_one (Nat.pos_of_ne_zero hzero)]
    omega

/-- A return frees at most one place, and closes no pool. -/
theorem returnConnection_spec (s : ConnectionPoolState) (c : ConnId) (isOpen : Bool) :
    (s.returnConnection c isOpen).1.closed = s.closed ∧
      (s.returnConnection c isOpen).1.free ≤ s.free + 1 := by
  unfold returnConnection
  split
  · exact ⟨rfl, s.free_sub_one⟩
  · refine ⟨rfl, ?_⟩
    change (s.idleConnections ++ [c]).length +
      (s.config.maxConnections.toNat - s.totalConnections.toNat) ≤ s.free + 1
    rw [List.length_append, List.length_singleton, free]
    omega

end ConnectionPoolState

/-- A critical section that notifies one thread frees one connection at most. -/
theorem Notifying.spec {s t : PoolSystem} (h : Notifying s t) :
    s.SameCalls t ∧ t.state.closed = s.state.closed ∧ t.state.free ≤ s.state.free + 1 := by
  cases h with
  | release h hc =>
    obtain ⟨q, hq, hthreads, hstopped, hstate⟩ := PoolSystem.release_spec hc
    rw [hstate]
    exact ⟨PoolSystem.sameCalls_set h rfl hq hthreads hstopped,
      s.state.returnConnection_spec _ _⟩
  | @moveAssign i target k result c h hne hc =>
    obtain ⟨q, hq, hthreads, hstopped, hstate⟩ := PoolSystem.release_spec (i := i) hc
    have hassign : s.moveAssign i target k = (s.release i target).moveInto target k := if_neg hne
    rw [hassign]
    refine ⟨PoolSystem.sameCalls_set h rfl hq hthreads hstopped, ?_⟩
    have hinto : ((s.release i target).moveInto target k).state = (s.release i target).state := rfl
    rw [hinto, hstate]
    exact s.state.returnConnection_spec _ _
  | creationFailed h =>
    exact ⟨PoolSystem.sameCalls_set h rfl rfl rfl rfl, rfl, s.state.free_sub_one⟩

/-! ## Notifications -/

section Notifications

variable {phases phases' : List WaitPhase} {i : ℕ} {p q : WaitPhase}

/-- A notification wakes blocked threads, and does nothing else. -/
def Woken (phases phases' : List WaitPhase) : Prop :=
  ∀ (i : ℕ) (p : WaitPhase), phases'[i]? = some p →
    phases[i]? = some p ∨ phases[i]? = some .blocked ∧ p = .awake

/-- `notify_all` only wakes. -/
theorem woken_notifyAll (phases : List WaitPhase) : Woken phases (notifyAll phases) := by
  intro i p h
  rw [notifyAll, List.getElem?_map, Option.map_eq_some_iff] at h
  obtain ⟨p', hp', rfl⟩ := h
  split
  · rename_i hblocked
    exact .inr ⟨hblocked ▸ hp', rfl⟩
  · exact .inl hp'

theorem woken_set (h : phases[i]? = some .blocked) : Woken phases (phases.set i .awake) := by
  intro j p hj
  rcases getElem?_set_cases hj with ⟨rfl, rfl⟩ | ⟨-, hj⟩
  · exact .inr ⟨h, rfl⟩
  · exact .inl hj

theorem Woken.mem_of_ne (h : Woken phases phases') (hp : p ∈ phases') (hne : p ≠ .awake) :
    p ∈ phases := by
  obtain ⟨i, hi⟩ := List.mem_iff_getElem?.mp hp
  rcases h i p hi with hi | ⟨-, hi⟩
  · exact List.mem_of_getElem? hi
  · contradiction

theorem NotifyOne.woken (h : NotifyOne phases phases') : Woken phases phases' := by
  cases h with
  | wakes h => exact woken_set h
  | nobody h => exact fun _ _ hp => .inl hp

/-- After `notify_all` no thread is blocked. -/
theorem blocked_notMem_notifyAll (phases : List WaitPhase) : .blocked ∉ notifyAll phases := by
  intro h
  obtain ⟨p, -, hp⟩ := List.mem_map.mp h
  split at hp
  · contradiction
  · rename_i hne
    exact hne hp

/-- The mutex is held after the check, or the thread is blocked. -/
def WaitPhase.IsHeld (p : WaitPhase) : Prop :=
  p = .blocking ∨ p = .blocked

theorem Woken.held (h : Woken phases phases') (hi : phases'[i]? = some p) (hp : p.IsHeld) :
    ∃ p', phases[i]? = some p' ∧ p'.IsHeld := by
  rcases h i p hi with hi | ⟨-, rfl⟩
  · exact ⟨p, hi, hp⟩
  · rcases hp with hp | hp <;> contradiction

/-- The phases after one of them changes. -/
theorem count_set (h : phases[i]? = some p) (q r : WaitPhase) :
    [p].count r + (phases.set i q).count r = [q].count r + phases.count r := by
  have hcount := (cons_set_perm h q).count_eq r
  rwa [List.count_cons, List.count_cons, Nat.add_comm, Nat.add_comm (phases.count r),
    ← List.count_singleton, ← List.count_singleton] at hcount

end Notifications

namespace PoolWaits

variable {s t : PoolWaits} {a : WaitLabel} {i : ℕ}

/-- Threads with a phase are in the wait. -/
def Linked (s : PoolWaits) : Prop :=
  ∀ (i : ℕ) (p : WaitPhase), s.phases[i]? = some p → p ≠ .away →
    ∃ r token, s.pool.threads[i]? = some (.waiting r token)

/-- A thread that waits for nothing is away from the condition variable. -/
theorem Linked.away (hs : s.Linked) {q : PoolThread} (h : s.pool.threads[i]? = some q)
    (hq : ∀ r token, q ≠ .waiting r token) {p : WaitPhase} (hp : s.phases[i]? = some p) :
    p = .away := by
  by_contra hne
  obtain ⟨r, token, hwaiting⟩ := hs i p hp hne
  rw [h] at hwaiting
  exact hq r token (Option.some.inj hwaiting)

theorem Linked.woken (hs : s.Linked) {pool : PoolSystem} (hpool : s.pool.SameCalls pool)
    {phases : List WaitPhase} (hphases : Woken s.phases phases)
    {registering registered : List (ℕ × ℕ)}
    {stopping : List ℕ} : Linked ⟨pool, phases, registering, registered, stopping⟩ := by
  intro i p hp haway
  have hlink : ∃ r token, s.pool.threads[i]? = some (.waiting r token) := by
    rcases hphases i p hp with hp | ⟨hp, -⟩
    · exact hs i p hp haway
    · exact hs i .blocked hp WaitPhase.noConfusion
  obtain ⟨r, token, h⟩ := hlink
  exact ⟨r, token, (hpool.threads_iff i _ rfl).mpr h⟩

/-- A step of one thread. -/
theorem Linked.set (hs : s.Linked) {p q : PoolThread} (h : s.pool.threads[i]? = some p)
    (hthreads : t.pool.threads = s.pool.threads.set i q)
    (hphases : ∀ (j : ℕ) (x : WaitPhase), t.phases[j]? = some x → x ≠ .away →
      i = j ∧ (∃ r token, q = .waiting r token) ∨ i ≠ j ∧ s.phases[j]? = some x) : t.Linked := by
  obtain ⟨hi, -⟩ := List.getElem?_eq_some_iff.mp h
  intro j x hx haway
  rw [hthreads]
  rcases hphases j x hx haway with ⟨rfl, r, token, rfl⟩ | ⟨hne, hx⟩
  · exact ⟨r, token, List.getElem?_set_self hi⟩
  · rw [List.getElem?_set_ne hne]
    exact hs j x hx haway

/-- Every step keeps the threads and their phases together. -/
theorem Linked.step (hs : s.Linked) (h : PoolWait s a t) : t.Linked := by
  have hsame : s.pool.SameCalls s.pool := PoolSystem.sameCalls_of_eq rfl rfl
  have hkeep : Woken s.phases s.phases := fun _ _ hp => .inl hp
  cases h with
  | spawn =>
    intro i p hp haway
    obtain ⟨r, token, h⟩ := hs i p ((getElem?_concat_iff haway).mp hp) haway
    exact ⟨r, token, (getElem?_concat_iff PoolThread.noConfusion).mpr h⟩
  | unlocked h => exact hs.woken h.sameCalls.1 hkeep
  | notifying hfree h hphases => exact hs.woken h.spec.1 hphases.woken
  | @close i result hfree h =>
    obtain ⟨hstopped, -, q, hq, hthreads⟩ := s.pool.close_spec i
    refine hs.woken (PoolSystem.sameCalls_set h rfl hq hthreads hstopped) ?_
    split
    · exact hkeep
    · exact woken_notifyAll _
  | construct h =>
    refine hs.woken hsame ?_
    split
    · exact woken_notifyAll _
    · exact hkeep
  | block h =>
    intro j p hp haway
    rcases getElem?_set_cases hp with ⟨rfl, rfl⟩ | ⟨-, hp⟩
    · exact hs _ _ h WaitPhase.noConfusion
    · exact hs j p hp haway
  | wakeUp h => exact hs.woken hsame (woken_set h)
  | destruct h hk => exact hs
  | requestStop h => exact hs
  | runCallback h hk => exact hs.woken hsame (woken_notifyAll _)
  | stopDone h hk => exact hs
  | @request i result h hdone r token =>
    refine hs.set h rfl fun j x hx haway => .inr ⟨?_, hx⟩
    rintro rfl
    exact haway (hs.away h (fun _ _ => PoolThread.noConfusion) hx)
  | @enter i r token hfree h hdone =>
    cases hd : s.pool.state.enter r (s.pool.stopRequested token) with
    | none =>
      refine hs.set h (q := .waiting r token) ?_ fun j x hx haway => ?_
      · rw [enter, PoolSystem.enter, hd]
        rfl
      · refine (getElem?_set_cases hx).imp_left fun hx => ⟨hx.1, r, token, rfl⟩
    | some d =>
      obtain ⟨q, -, hthreads, -⟩ := s.pool.decide_spec i d
      refine hs.set h (q := q) ?_ fun j x hx haway => ?_
      · rw [enter, PoolSystem.enter, hd]
        exact hthreads
      · rw [enter, hd] at hx
        exact (getElem?_set_cases hx).imp_left fun hx => absurd hx.2 haway
  | @recheck i r token hfree h hphase timedOut =>
    cases hd : s.pool.state.wait r (s.pool.stopRequested token) timedOut with
    | none =>
      refine hs.set h (q := .waiting r token) ?_ fun j x hx haway => ?_
      · rw [recheck, PoolSystem.wake, hd]
        rfl
      · refine (getElem?_set_cases hx).imp_left fun hx => ⟨hx.1, r, token, rfl⟩
    | some d =>
      obtain ⟨q, -, hthreads, -⟩ := s.pool.decide_spec i d
      refine hs.set h (q := q) ?_ fun j x hx haway => ?_
      · rw [recheck, PoolSystem.wake, hd]
        exact hthreads
      · rw [recheck, hd] at hx
        exact (getElem?_set_cases hx).imp_left fun hx => absurd hx.2 haway

/-! ## No connection is stranded -/

/-- What a thread that waits can count on. -/
structure Served (s : PoolWaits) : Prop where
  /-- While the mutex is held after the check, no connection becomes free. -/
  blocking : .blocking ∈ s.phases → s.pool.state.free = 0
  /-- Where threads are blocked, others are awake for the connections that are free. -/
  blocked : s.pool.state.closed = true ∨ .blocked ∉ s.phases ∨
    s.pool.state.free ≤ s.phases.count .awake

/-- No thread that was woken leaves, by cancellation, a free connection that the other awake
threads do not need, to the threads that are blocked. -/
def LeavesNone (s : PoolWaits) : WaitLabel → Prop
  | .recheck i => ∀ (r : Request) (k : ℕ), s.pool.threads[i]? = some (.waiting r (some k)) →
    k ∈ s.pool.stopped → s.pool.state.closed = true ∨ .blocked ∉ s.phases ∨
      s.pool.state.free < s.phases.count .awake
  | _ => True

@[simp] theorem request_state (s : PoolWaits) (i : ℕ) (r : Request) (token : Option ℕ) :
    (s.request i r token).pool.state = s.pool.state :=
  rfl

@[simp] theorem decideOrWait_some (s : PoolSystem) (i : ℕ) (r : Request) (token : Option ℕ)
    (d : ConnectionPoolState × Decision) : s.decideOrWait i r token (some d) = s.decide i d :=
  rfl

/-- Where nothing is free, nobody is left out. -/
theorem Served.of_free_eq_zero (hfree : s.pool.state.free = 0) : s.Served :=
  ⟨fun _ => hfree, .inr (.inr (by omega))⟩

/-- Threads are woken, and nothing becomes free. -/
theorem Served.woken (hs : s.Served) (hstate : t.pool.state = s.pool.state)
    (hphases : Woken s.phases t.phases)
    (hblocked : .blocked ∉ t.phases ∨ s.phases.count .awake ≤ t.phases.count .awake) :
    t.Served := by
  refine ⟨fun hmem => ?_, ?_⟩
  · rw [hstate]
    exact hs.blocking (hphases.mem_of_ne hmem WaitPhase.noConfusion)
  · rw [hstate]
    rcases hblocked with hblocked | hcount
    · exact .inr (.inl hblocked)
    · refine hs.blocked.imp_right (Or.imp (fun hnot hmem => ?_) fun hle => hle.trans hcount)
      exact hnot (hphases.mem_of_ne hmem WaitPhase.noConfusion)

/-- A step that leaves no thread behind keeps all threads served. -/
theorem Served.step (hs : s.Served) (hlinked : s.Linked) (hmeets : s.LeavesNone a)
    (h : PoolWait s a t) : t.Served := by
  have hkeep : Woken s.phases s.phases := fun _ _ hp => .inl hp
  have hsame : .blocked ∉ s.phases ∨ s.phases.count .awake ≤ s.phases.count .awake :=
    .inr (Nat.le_refl _)
  cases h with
  | spawn =>
    refine ⟨fun hmem => hs.blocking ?_, hs.blocked.imp_right (Or.imp (fun hnot hmem => ?_) ?_)⟩
    · simpa using hmem
    · exact hnot (by simpa using hmem)
    · intro hle
      rwa [List.count_append, List.count_singleton, if_neg (by decide), Nat.add_zero]
  | unlocked h => exact hs.woken h.sameCalls.2 hkeep hsame
  | notifying hfree h hphases =>
    obtain ⟨-, hclosed, hfree'⟩ := h.spec
    refine ⟨fun hmem => absurd (hphases.woken.mem_of_ne hmem WaitPhase.noConfusion) hfree, ?_⟩
    rw [hclosed]
    refine hs.blocked.imp_right fun hblocked => ?_
    cases hphases with
    | nobody hnot => exact .inl hnot
    | @wakes i hi =>
      have hcount := count_set hi .awake .awake
      rw [List.count_singleton_self, List.count_singleton, if_neg (by decide)] at hcount
      have hle := hblocked.resolve_left fun hnot => hnot (List.mem_of_getElem? hi)
      exact .inr (by simp only; omega)
  | @close i result hfree h =>
    obtain ⟨-, hclosed, -⟩ := s.pool.close_spec i
    refine ⟨fun hmem => absurd ?_ hfree, .inl hclosed⟩
    unfold PoolWaits.close at hmem
    split at hmem
    · exact hmem
    · exact (woken_notifyAll _).mem_of_ne hmem WaitPhase.noConfusion
  | request h hdone r token => exact hs.woken (request_state _ _ _ _) hkeep hsame
  | construct h =>
    unfold construct
    split
    · exact hs.woken rfl (woken_notifyAll _) (.inl (blocked_notMem_notifyAll _))
    · exact hs.woken rfl hkeep hsame
  | @enter i r token hfree h hdone =>
    cases hd : s.pool.state.enter r (s.pool.stopRequested token) with
    | none =>
      refine .of_free_eq_zero ?_
      rw [enter, PoolSystem.enter, hd]
      exact (ConnectionPoolState.of_enter_none hd).2.2
    | some d =>
      obtain ⟨q, -, -, -, hstate⟩ := s.pool.decide_spec i d
      have hdecides := ConnectionPoolState.decides_enter hd
      have hphases : s.phases.set i .away = s.phases := by
        refine List.ext_getElem? fun j => ?_
        by_cases hij : i = j
        · subst hij
          rw [List.getElem?_set_self']
          cases hp : s.phases[i]? with
          | none => rfl
          | some p =>
            rw [hlinked.away h (fun _ _ => PoolThread.noConfusion) hp]
            rfl
        · rw [List.getElem?_set_ne hij]
      have hle := hdecides.free_le
      rw [enter, PoolSystem.enter, hd]
      refine ⟨fun hmem => ?_, ?_⟩
      · simp only [Option.isSome_some, if_true, hphases] at hmem
        exact absurd hmem hfree
      · simp only [Option.isSome_some, if_true, hphases, decideOrWait_some, hstate,
          hdecides.spec.1]
        exact hs.blocked.imp_right (Or.imp_right fun hle' => hle.trans hle')
  | block h =>
    exact .of_free_eq_zero (hs.blocking (List.mem_of_getElem? h))
  | @wakeUp i h =>
    have hcount := count_set h .awake .awake
    rw [List.count_singleton_self, List.count_singleton, if_neg (by decide)] at hcount
    exact hs.woken rfl (woken_set h) (.inr (by simp only; omega))
  | @recheck i r token hfree h hphase timedOut =>
    cases hd : s.pool.state.wait r (s.pool.stopRequested token) timedOut with
    | none =>
      refine .of_free_eq_zero ?_
      rw [recheck, PoolSystem.wake, hd]
      exact (ConnectionPoolState.of_wait_none hd).2.2
    | some d =>
      obtain ⟨q, -, -, -, hstate⟩ := s.pool.decide_spec i d
      have hdecides := ConnectionPoolState.decides_wait hd
      have hcount := count_set hphase .away .awake
      rw [List.count_singleton_self, List.count_singleton, if_neg (by decide)] at hcount
      have hnot : ∀ p, p ≠ .away → p ∈ s.phases.set i .away → p ∈ s.phases := by
        intro p hp hmem
        exact (List.mem_or_eq_of_mem_set hmem).resolve_right hp
      rw [recheck, PoolSystem.wake, hd]
      simp only [Option.isSome_some, if_true, decideOrWait_some]
      refine ⟨fun hmem => absurd (hnot _ WaitPhase.noConfusion hmem) hfree, ?_⟩
      simp only [hstate, hdecides.spec.1]
      rcases ConnectionPoolState.wait_spec hd with hlt | ⟨heq, hwhy⟩
      · -- it takes a connection
        refine hs.blocked.imp_right (Or.imp (fun hblocked hmem => ?_) fun hle => by omega)
        exact hblocked (hnot _ WaitPhase.noConfusion hmem)
      · rw [heq]
        rcases hwhy with hstopped | hclosed | hzero
        · cases token with
          | none => contradiction
          | some k =>
            have hleaves := hmeets r k h (by simpa [PoolSystem.stopRequested] using hstopped)
            refine hleaves.imp_right (Or.imp (fun hblocked hmem => ?_) fun hle => by omega)
            exact hblocked (hnot _ WaitPhase.noConfusion hmem)
        · exact .inl hclosed
        · exact .inr (.inr (by omega))
  | destruct h hk => exact hs.woken rfl hkeep hsame
  | requestStop h => exact hs.woken rfl hkeep hsame
  | runCallback h hk =>
    exact hs.woken rfl (woken_notifyAll _) (.inl (blocked_notMem_notifyAll _))
  | stopDone h hk => exact hs.woken rfl hkeep hsame

/-- Every thread is outside the pool, or blocked. -/
def AtRest (s : PoolWaits) : Prop :=
  ∀ (i : ℕ) (p : PoolThread), s.pool.threads[i]? = some p →
    p.isOutside = true ∨ s.phases[i]? = some .blocked

theorem linked_started (config : PoolConfig) : (started config).Linked := by
  intro i p hp
  contradiction

theorem served_started (config : PoolConfig) : (started config).Served :=
  ⟨fun hmem => absurd hmem List.not_mem_nil, .inr (.inl List.not_mem_nil)⟩

/-- In a run in which no cancelled thread leaves a connection to the blocked ones, threads that
are blocked in an open pool at rest wait for a connection that there is not. -/
theorem not_stranded {config : PoolConfig} {as : List WaitLabel} {s : PoolWaits}
    (h : Run (Meeting LeavesNone PoolWait) (started config) as s) (hrest : s.AtRest)
    (hblocked : .blocked ∈ s.phases) (hopen : s.pool.state.closed = false) :
    s.pool.state.idleConnections = [] ∧
      ¬ s.pool.state.totalConnections < s.pool.state.config.maxConnections := by
  have hs : s.Linked ∧ s.Served := h.invariant (P := fun s => s.Linked ∧ s.Served)
    (fun hs hstep => ⟨hs.1.step hstep.2, hs.2.step hs.1 hstep.1 hstep.2⟩)
    ⟨linked_started config, served_started config⟩
  have hawake : .awake ∉ s.phases := by
    intro hmem
    obtain ⟨i, hi⟩ := List.mem_iff_getElem?.mp hmem
    obtain ⟨r, token, hthread⟩ := hs.1 i _ hi WaitPhase.noConfusion
    rcases hrest i _ hthread with houtside | hphase
    · contradiction
    · rw [hi] at hphase
      contradiction
  have hfree : s.pool.state.free = 0 := by
    rcases hs.2.blocked with hclosed | hnot | hle
    · rw [hopen] at hclosed
      contradiction
    · exact absurd hblocked hnot
    · rw [List.count_eq_zero_of_not_mem hawake] at hle
      omega
  have hnone := mt ConnectionPoolState.free_pos_iff.mpr (by rw [hfree]; exact Nat.lt_irrefl 0)
  exact ⟨not_not.mp fun hidle => hnone (.inl hidle), fun hlt => hnone (.inr hlt)⟩

/-! ## No cancellation is lost -/

/-- What a thread with a stop token can count on. -/
structure Covered (s : PoolWaits) : Prop where
  stopping : ∀ k ∈ s.stopping, k ∈ s.pool.stopped
  entering : ∀ (i : ℕ) (r : Request) (k : ℕ), s.pool.threads[i]? = some (.entering r (some k)) →
    (i, k) ∈ s.registering ∨ (i, k) ∈ s.registered ∨ k ∈ s.pool.stopped
  waiting : ∀ (i : ℕ) (r : Request) (k : ℕ), s.pool.threads[i]? = some (.waiting r (some k)) →
    (i, k) ∈ s.registered ∨ k ∈ s.pool.stopped
  /-- Its callback has yet to run. -/
  held : ∀ (i : ℕ) (r : Request) (k : ℕ) (p : WaitPhase),
    s.pool.threads[i]? = some (.waiting r (some k)) → s.phases[i]? = some p → p.IsHeld →
    (i, k) ∈ s.registered ∧ (k ∈ s.pool.stopped → k ∈ s.stopping)

/-- No request to stop runs the callback of a thread between its check and its block. -/
def OutsideWindow (s : PoolWaits) : WaitLabel → Prop
  | .callback i _ => s.phases[i]? ≠ some .blocking
  | _ => True

/-- The calls go on, no thread is newly blocked, and the callbacks of calls are kept. -/
theorem Covered.keep (hs : s.Covered) (hpool : s.pool.SameCalls t.pool)
    (hphases : ∀ (i : ℕ) (p : WaitPhase), t.phases[i]? = some p → p.IsHeld →
      ∃ p', s.phases[i]? = some p' ∧ p'.IsHeld)
    (hregistering : ∀ x ∈ s.registering,
      x ∈ t.registering ∨ x ∈ t.registered ∨ x.2 ∈ s.pool.stopped)
    (hregistered : ∀ (i k : ℕ) (p : PoolThread), s.pool.threads[i]? = some p →
      p.isRequesting = true → (i, k) ∈ s.registered → (i, k) ∈ t.registered)
    (hstopping : t.stopping = s.stopping) : t.Covered := by
  have hstopped := hpool.stopped_eq
  refine ⟨?_, fun i r k h => ?_, fun i r k h => ?_, fun i r k p h hp hheld => ?_⟩
  · rw [hstopping, hstopped]
    exact hs.stopping
  · rw [hpool.threads_iff i _ rfl] at h
    rw [hstopped]
    rcases hs.entering i r k h with hk | hk | hk
    · exact hregistering _ hk
    · exact .inr (.inl (hregistered i k _ h rfl hk))
    · exact .inr (.inr hk)
  · rw [hpool.threads_iff i _ rfl] at h
    rw [hstopped]
    exact (hs.waiting i r k h).imp_left (hregistered i k _ h rfl)
  · rw [hpool.threads_iff i _ rfl] at h
    obtain ⟨p', hp', hheld'⟩ := hphases i p hp hheld
    rw [hstopped, hstopping]
    exact (hs.held i r k p' h hp' hheld').imp_left (hregistered i k _ h rfl)

/-- A step of one thread, that neither runs nor destroys a callback. -/
theorem Covered.set (hs : s.Covered) {q : PoolThread}
    (hthreads : t.pool.threads = s.pool.threads.set i q)
    (hphases : ∀ (j : ℕ) (x : WaitPhase), i ≠ j → t.phases[j]? = some x → s.phases[j]? = some x)
    (hstopped : t.pool.stopped = s.pool.stopped) (hregistering : s.registering ⊆ t.registering)
    (hregistered : t.registered = s.registered) (hstopping : t.stopping = s.stopping)
    (hentering : ∀ r k, q = .entering r (some k) → (i, k) ∈ t.registering)
    (hwaiting : ∀ r k, q = .waiting r (some k) → (i, k) ∈ s.registered ∧ k ∉ s.pool.stopped) :
    t.Covered := by
  have hother : ∀ (j : ℕ) (p' : PoolThread), t.pool.threads[j]? = some p' →
      i = j ∧ p' = q ∨ i ≠ j ∧ s.pool.threads[j]? = some p' := by
    intro j p' hp'
    rw [hthreads] at hp'
    exact getElem?_set_cases hp'
  refine ⟨?_, fun j r k hj => ?_, fun j r k hj => ?_, fun j r k x hj hx hheld => ?_⟩
  · rw [hstopping, hstopped]
    exact hs.stopping
  · rw [hstopped, hregistered]
    rcases hother j _ hj with ⟨rfl, hq⟩ | ⟨-, hj⟩
    · exact .inl (hentering r k hq.symm)
    · exact (hs.entering j r k hj).imp_left fun hk => hregistering hk
  · rw [hstopped, hregistered]
    rcases hother j _ hj with ⟨rfl, hq⟩ | ⟨-, hj⟩
    · exact .inl (hwaiting r k hq.symm).1
    · exact hs.waiting j r k hj
  · rw [hstopped, hregistered, hstopping]
    rcases hother j _ hj with ⟨rfl, hq⟩ | ⟨hne, hj⟩
    · have hk := hwaiting r k hq.symm
      exact ⟨hk.1, fun hstop => absurd hstop hk.2⟩
    · exact hs.held j r k x hj (hphases j x hne hx) hheld

/-- A step outside the window keeps every cancellation covered. -/
theorem Covered.step (hs : s.Covered) (hmeets : s.OutsideWindow a) (h : PoolWait s a t) :
    t.Covered := by
  have hsame : s.pool.SameCalls s.pool := PoolSystem.sameCalls_of_eq rfl rfl
  have hphases : ∀ (i : ℕ) (p : WaitPhase), s.phases[i]? = some p → p.IsHeld →
      ∃ p', s.phases[i]? = some p' ∧ p'.IsHeld := fun i p hp hheld => ⟨p, hp, hheld⟩
  have hregistering : ∀ x ∈ s.registering,
      x ∈ s.registering ∨ x ∈ s.registered ∨ x.2 ∈ s.pool.stopped := fun x hx => .inl hx
  have hregistered : ∀ (i k : ℕ) (p : PoolThread), s.pool.threads[i]? = some p →
      p.isRequesting = true → (i, k) ∈ s.registered → (i, k) ∈ s.registered :=
    fun _ _ _ _ _ hk => hk
  cases h with
  | spawn =>
    refine hs.keep ⟨fun i p hp => getElem?_concat_iff ?_, rfl⟩ (fun i p hp hheld => ?_)
      hregistering hregistered rfl
    · rintro rfl
      contradiction
    · refine ⟨p, (getElem?_concat_iff ?_).mp hp, hheld⟩
      rintro rfl
      rcases hheld with hheld | hheld <;> contradiction
  | unlocked h => exact hs.keep h.sameCalls.1 hphases hregistering hregistered rfl
  | notifying hfree h hnotify =>
    exact hs.keep h.spec.1 (fun i p => hnotify.woken.held) hregistering hregistered rfl
  | @close i result hfree h =>
    obtain ⟨hstopped, -, q, hq, hthreads⟩ := s.pool.close_spec i
    refine hs.keep (PoolSystem.sameCalls_set h rfl hq hthreads hstopped) ?_ hregistering
      hregistered rfl
    unfold PoolWaits.close
    split
    · exact hphases
    · exact fun i p => (woken_notifyAll _).held
  | @construct i k h =>
    refine hs.keep hsame ?_ (fun x hx => ?_) (fun j k' p _ _ hk => ?_) rfl
    · unfold construct
      split
      · exact fun i p => (woken_notifyAll _).held
      · exact hphases
    · by_cases hxk : x = (i, k)
      · subst hxk
        by_cases hstop : k ∈ s.pool.stopped
        · exact .inr (.inr hstop)
        · exact .inr (.inl (by simp [construct, hstop]))
      · exact .inl ((List.mem_erase_of_ne hxk).mpr hx)
    · unfold construct
      split
      · exact hk
      · exact List.mem_cons_of_mem _ hk
  | @block i h =>
    refine hs.keep hsame (fun j p hp hheld => ?_) hregistering hregistered rfl
    rcases getElem?_set_cases hp with ⟨rfl, -⟩ | ⟨-, hp⟩
    · exact ⟨_, h, .inl rfl⟩
    · exact ⟨p, hp, hheld⟩
  | wakeUp h => exact hs.keep hsame (fun i p => (woken_set h).held) hregistering hregistered rfl
  | @destruct i k result h hk =>
    refine hs.keep hsame hphases (fun x hx => .inl hx) (fun j k' p hp hrequesting hk' => ?_) rfl
    refine (List.mem_erase_of_ne ?_).mpr hk'
    intro heq
    obtain ⟨rfl, rfl⟩ := Prod.mk.inj heq
    rw [h] at hp
    cases hp
    contradiction
  | @requestStop k h =>
    refine ⟨fun k' hk' => ?_, fun i r k' hi => ?_, fun i r k' hi => ?_,
      fun i r k' p hi hp hheld => ?_⟩
    · rcases List.mem_cons.mp hk' with rfl | hk'
      · exact List.mem_cons_self
      · exact List.mem_cons_of_mem _ (hs.stopping k' hk')
    · exact (hs.entering i r k' hi).imp_right (Or.imp_right (List.mem_cons_of_mem _))
    · exact (hs.waiting i r k' hi).imp_right (List.mem_cons_of_mem _)
    · obtain ⟨hk', hstop⟩ := hs.held i r k' p hi hp hheld
      refine ⟨hk', fun hmem => ?_⟩
      rcases List.mem_cons.mp hmem with rfl | hmem
      · exact List.mem_cons_self
      · exact List.mem_cons_of_mem _ (hstop hmem)
  | @runCallback i k h hk =>
    have hstopped := hs.stopping k h
    have hkept : ∀ (j k' : ℕ), (j, k') ∈ s.registered →
        (j, k') ∈ s.registered.erase (i, k) ∨ j = i ∧ k' = k := by
      intro j k' hk'
      by_cases heq : (j, k') = (i, k)
      · exact .inr (Prod.mk.inj heq)
      · exact .inl ((List.mem_erase_of_ne heq).mpr hk')
    refine ⟨hs.stopping, fun j r k' hj => ?_, fun j r k' hj => ?_, fun j r k' p hj hp hheld => ?_⟩
    · rcases hs.entering j r k' hj with hk' | hk' | hk'
      · exact .inl hk'
      · refine .inr ((hkept j k' hk').imp_right fun heq => ?_)
        rw [heq.2]
        exact hstopped
      · exact .inr (.inr hk')
    · rcases hs.waiting j r k' hj with hk' | hk'
      · refine (hkept j k' hk').imp_right fun heq => ?_
        rw [heq.2]
        exact hstopped
      · exact .inr hk'
    · -- who is blocked is woken, so the mutex is held, and not by the thread of the callback
      have hblocking : p = .blocking := by
        refine hheld.resolve_right fun hblocked => ?_
        subst hblocked
        exact blocked_notMem_notifyAll _ (List.mem_of_getElem? hp)
      subst hblocking
      rcases woken_notifyAll s.phases j _ hp with hphase | ⟨-, hawake⟩
      · obtain ⟨hk', hstop⟩ := hs.held j r k' _ hj hphase (.inl rfl)
        refine ⟨(hkept j k' hk').resolve_right ?_, hstop⟩
        rintro ⟨rfl, rfl⟩
        exact hmeets hphase
      · contradiction
  | @stopDone k h hk =>
    refine ⟨fun k' hk' => hs.stopping k' (List.mem_of_mem_erase hk'), hs.entering, hs.waiting,
      fun j r k' p hj hp hheld => ?_⟩
    obtain ⟨hk', hstop⟩ := hs.held j r k' p hj hp hheld
    refine ⟨hk', fun hmem => (List.mem_erase_of_ne ?_).mpr (hstop hmem)⟩
    rintro rfl
    exact hk j hk'
  | @request i result h hdone r token =>
    refine hs.set (i := i)
      (q := if s.pool.stopRequested token then .outside (.error acquisitionCancelled)
        else .entering r token) rfl (fun _ _ _ hx => hx) rfl ?_ rfl rfl (fun r' k hq => ?_)
      fun r' k hq => ?_
    · unfold request
      split
      · exact List.Subset.refl _
      · exact List.subset_append_right _ _
    · split at hq
      · contradiction
      · rename_i hstopped
        cases hq
        simp [request, hstopped]
    · split at hq <;> contradiction
  | @enter i r token hfree h hdone =>
    have hother : ∀ (j : ℕ) (x : WaitPhase), i ≠ j → (s.enter i r token).phases[j]? = some x →
        s.phases[j]? = some x := by
      intro j x hne hx
      rwa [enter, List.getElem?_set_ne hne] at hx
    cases hd : s.pool.state.enter r (s.pool.stopRequested token) with
    | none =>
      refine hs.set (i := i) (q := .waiting r token) ?_ hother ?_ (List.Subset.refl _) rfl rfl
        (fun _ _ hq => PoolThread.noConfusion hq) fun r' k hq => ?_
      · rw [enter, PoolSystem.enter, hd]
        rfl
      · rw [enter, PoolSystem.enter, hd]
        rfl
      · cases hq
        have hnot : k ∉ s.pool.stopped := by
          simpa [PoolSystem.stopRequested] using (ConnectionPoolState.of_enter_none hd).1
        exact ⟨((hs.entering i r k h).resolve_left (hdone k)).resolve_right hnot, hnot⟩
    | some d =>
      obtain ⟨q, hq, hthreads, hstopped, -⟩ := s.pool.decide_spec i d
      refine hs.set (i := i) (q := q) ?_ hother ?_ (List.Subset.refl _) rfl rfl ?_ ?_
      · rw [enter, PoolSystem.enter, hd]
        exact hthreads
      · rw [enter, PoolSystem.enter, hd]
        exact hstopped
      · rintro r' k rfl
        contradiction
      · rintro r' k rfl
        contradiction
  | @recheck i r token hfree h hphase timedOut =>
    have hother : ∀ (j : ℕ) (x : WaitPhase), i ≠ j →
        (s.recheck i r token timedOut).phases[j]? = some x → s.phases[j]? = some x := by
      intro j x hne hx
      rwa [recheck, List.getElem?_set_ne hne] at hx
    cases hd : s.pool.state.wait r (s.pool.stopRequested token) timedOut with
    | none =>
      refine hs.set (i := i) (q := .waiting r token) ?_ hother ?_ (List.Subset.refl _) rfl rfl
        (fun _ _ hq => PoolThread.noConfusion hq) fun r' k hq => ?_
      · rw [recheck, PoolSystem.wake, hd]
        rfl
      · rw [recheck, PoolSystem.wake, hd]
        rfl
      · cases hq
        have hnot : k ∉ s.pool.stopped := by
          simpa [PoolSystem.stopRequested] using (ConnectionPoolState.of_wait_none hd).1
        exact ⟨(hs.waiting i r k h).resolve_right hnot, hnot⟩
    | some d =>
      obtain ⟨q, hq, hthreads, hstopped, -⟩ := s.pool.decide_spec i d
      refine hs.set (i := i) (q := q) ?_ hother ?_ (List.Subset.refl _) rfl rfl ?_ ?_
      · rw [recheck, PoolSystem.wake, hd]
        exact hthreads
      · rw [recheck, PoolSystem.wake, hd]
        exact hstopped
      · rintro r' k rfl
        contradiction
      · rintro r' k rfl
        contradiction

theorem covered_started (config : PoolConfig) : (started config).Covered := by
  refine ⟨fun k hk => absurd hk List.not_mem_nil, fun i r k hi => ?_, fun i r k hi => ?_,
    fun i r k p hi => ?_⟩ <;> contradiction

/-- No callback and no step of the pool is in progress. -/
structure Quiet (s : PoolWaits) : Prop where
  stopping_eq : s.stopping = []
  registering_eq : s.registering = []
  atRest : s.AtRest

/-- In a run in which no request to stop runs the callback of a thread between its check and its
block, no thread is blocked in a quiet state although its token was signalled. -/
theorem cancellation_takes_effect {config : PoolConfig} {as : List WaitLabel} {s : PoolWaits}
    (h : Run (Meeting OutsideWindow PoolWait) (started config) as s) (hquiet : s.Quiet) {i : ℕ}
    {r : Request} {k : ℕ} (hthread : s.pool.threads[i]? = some (.waiting r (some k)))
    (hblocked : s.phases[i]? = some .blocked) : k ∉ s.pool.stopped := by
  have hs : s.Covered := h.invariant (P := Covered) (fun hs hstep => hs.step hstep.1 hstep.2)
    (covered_started config)
  intro hstopped
  have hstopping := (hs.held i r k _ hthread hblocked (.inr rfl)).2 hstopped
  rw [hquiet.stopping_eq] at hstopping
  contradiction

/-! ## Two runs -/

/-- A pool of one connection. The first thread has it, the second one has found the predicate
false. -/
def aboutToBlock : PoolWaits :=
  let s := { started { maxConnections := 1 } with phases := [.away, .away, .away] }
  let s := { s with pool := { s.pool with threads := List.replicate 3 (.outside (.ok none)) } }
  (((s.request 0 .acquire none).enter 0 .acquire none).request 1 .acquire (some 5)
    |>.construct 1 5).enter 1 .acquire (some 5)

theorem run_aboutToBlock {C : PoolWaits → WaitLabel → Prop} (hC : ∀ s, C s .other) :
    Run (Meeting C PoolWait) (started { maxConnections := 1 }) (List.replicate 8 .other)
      aboutToBlock :=
  .cons ⟨hC _, .spawn _⟩ <| .cons ⟨hC _, .spawn _⟩ <| .cons ⟨hC _, .spawn _⟩ <|
    .cons ⟨hC _, .request (i := 0) rfl (fun _ => List.not_mem_nil) .acquire none⟩ <|
    .cons ⟨hC _, .enter (i := 0) (by unfold MutexFree; decide) rfl fun _ => List.not_mem_nil⟩ <|
    .cons ⟨hC _, .request (i := 1) rfl (fun _ => List.not_mem_nil) .acquire (some 5)⟩ <|
    .cons ⟨hC _, .construct List.mem_cons_self⟩ <|
    .cons ⟨hC _, .enter (i := 1) (by unfold MutexFree; decide) rfl fun _ => List.not_mem_nil⟩ .nil

/-- The second thread is blocked. -/
def oneBlocked : PoolWaits :=
  { aboutToBlock with phases := aboutToBlock.phases.set 1 .blocked }

theorem run_oneBlocked {C : PoolWaits → WaitLabel → Prop} (hC : ∀ s, C s .other) :
    Run (Meeting C PoolWait) (started { maxConnections := 1 })
      (List.replicate 8 .other ++ [.other]) oneBlocked :=
  (run_aboutToBlock hC).append (.cons ⟨hC _, .block rfl⟩ .nil)

theorem atRest_of_forall {s : PoolWaits} (h : (List.range s.pool.threads.length).all fun i =>
    s.pool.threads[i]?.any PoolThread.isOutside || s.phases[i]? == some .blocked) : s.AtRest := by
  intro i p hp
  obtain ⟨hi, -⟩ := List.getElem?_eq_some_iff.mp hp
  have hthread := List.all_eq_true.mp h i (List.mem_range.mpr hi)
  rw [hp] at hthread
  simpa using hthread

/-- A blocked thread whose token was not signalled. -/
theorem cancellation_takes_effect_oneBlocked : 5 ∉ oneBlocked.pool.stopped :=
  cancellation_takes_effect (run_oneBlocked fun _ => trivial)
    ⟨rfl, rfl, atRest_of_forall (by decide)⟩ (i := 1) rfl rfl

theorem refines_oneBlocked :
    (∃ ls, Run PoolStep (PoolSystem.started { maxConnections := 1 }) ls oneBlocked.pool) ∧
      oneBlocked.pool.Accounted :=
  refines (run_oneBlocked (C := fun _ _ => True) fun _ => trivial).of_meeting

/-- A blocked thread in a pool without a free connection. -/
theorem not_stranded_oneBlocked : oneBlocked.pool.state.idleConnections = [] ∧
    ¬ oneBlocked.pool.state.totalConnections < oneBlocked.pool.state.config.maxConnections :=
  not_stranded (run_oneBlocked fun _ => trivial) (atRest_of_forall (by decide)) (by decide) rfl

/-- The callback runs between the check and the block. -/
theorem run_lost : ∃ s, Run PoolWait aboutToBlock [.other, .callback 1 5, .other, .other] s ∧
    s.Quiet ∧ s.pool.threads[1]? = some (.waiting .acquire (some 5)) ∧
    s.phases[1]? = some .blocked ∧ 5 ∈ s.pool.stopped := by
  refine ⟨_, .cons (.requestStop (k := 5) List.not_mem_nil) <|
    .cons (.runCallback (i := 1) List.mem_cons_self List.mem_cons_self) <|
    .cons (.stopDone (k := 5) List.mem_cons_self fun i => List.not_mem_nil) <|
    .cons (.block (i := 1) rfl) .nil, ⟨rfl, rfl, atRest_of_forall (by decide)⟩, rfl, rfl, ?_⟩
  exact List.mem_cons_self

/-- A cancellation between the test and the block does not wake the thread. -/
theorem not_forall_cancellation_takes_effect : ¬ ∀ (config : PoolConfig) (as : List WaitLabel)
    (s : PoolWaits), Run PoolWait (started config) as s → s.Quiet →
    ∀ (i : ℕ) (r : Request) (k : ℕ), s.pool.threads[i]? = some (.waiting r (some k)) →
      s.phases[i]? = some .blocked → k ∉ s.pool.stopped := by
  intro h
  obtain ⟨s, hrun, hquiet, hthread, hblocked, hstopped⟩ := run_lost
  have hstart : Run PoolWait (started { maxConnections := 1 }) _ aboutToBlock :=
    (run_aboutToBlock (C := fun _ _ => True) fun _ => trivial).of_meeting
  exact h _ _ s (hstart.append hrun) hquiet 1 .acquire 5 hthread hblocked hstopped

/-- The connection is returned, and the notification wakes a thread that is cancelled. -/
theorem run_stranded : ∃ as s, Run PoolWait oneBlocked as s ∧ s.AtRest ∧ .blocked ∈ s.phases ∧
    s.pool.state.closed = false ∧ s.pool.state.idleConnections ≠ [] := by
  have hregistered : ∀ k, (2, k) ∉ oneBlocked.registered := by
    intro k hk
    have hone : oneBlocked.registered = [(1, 5)] := rfl
    rw [hone, List.mem_singleton, Prod.mk.injEq] at hk
    exact absurd hk.1 (by decide)
  refine ⟨_, _, .cons (.request (i := 2) rfl hregistered .acquire none) <|
    .cons (.enter (i := 2) (by unfold MutexFree; decide) rfl fun _ => List.not_mem_nil) <|
    .cons (.block (i := 2) rfl) <|
    .cons (.requestStop (k := 5) List.not_mem_nil) <|
    .cons (.notifying (by unfold MutexFree; decide) (.release (i := 0) (k := 0) rfl rfl)
      (.wakes (i := 1) rfl)) <|
    .cons (.recheck (i := 1) (by unfold MutexFree; decide) rfl rfl false) <|
    .cons (.destruct (i := 1) rfl List.mem_cons_self) <|
    .cons (.stopDone (k := 5) List.mem_cons_self fun i => List.not_mem_nil) .nil,
    atRest_of_forall (by decide), by decide, rfl, ?_⟩
  exact List.cons_ne_nil _ _

/-- A thread stays blocked beside an idle connection, after a cancelled thread took its wake-up. -/
theorem not_forall_not_stranded : ¬ ∀ (config : PoolConfig) (as : List WaitLabel) (s : PoolWaits),
    Run PoolWait (started config) as s → s.AtRest → .blocked ∈ s.phases →
      s.pool.state.closed = false → s.pool.state.idleConnections = [] ∧
        ¬ s.pool.state.totalConnections < s.pool.state.config.maxConnections := by
  intro h
  obtain ⟨as, s, hrun, hrest, hblocked, hopen, hidle⟩ := run_stranded
  have hstart : Run PoolWait (started { maxConnections := 1 }) _ oneBlocked :=
    (run_oneBlocked (C := fun _ _ => True) fun _ => trivial).of_meeting
  exact hidle (h _ _ s (hstart.append hrun) hrest hblocked hopen).1

end PoolWaits

end CppLinq
