import CppLinq.Interleaving

/-!
# Closing a pool while it is being closed

`close()` has `close_mutex_` of the pool and `lifecycle_mutex_` of the executor while it
joins the workers (`driver/connection_pool.h`, `driver/async_executor.h`). A worker whose
callback calls `close()` is detached instead, but by its own call only. A thread that closes
the pool may therefore join a worker whose callback waits for `close_mutex_`
(`closers_cycle`). No run gets there in which no callback of an attached worker waits while
another thread is closing (`not_cycle_of_apart`).
-/

namespace CppLinq

/-! ## Threads -/

/-- The calls that take the mutexes. -/
inductive PoolCall
  | submit
  | close
  deriving DecidableEq

/-- A thread of the program, or a worker, which is joinable until it is joined or detached. -/
inductive ThreadKind
  | outside
  | attached
  | detached
  deriving DecidableEq

/-- Where a thread is in a call of the pool. -/
inductive CloserPhase
  /-- In no call of the pool. A worker has no job. -/
  | idle
  /-- A worker runs a callback. -/
  | callback
  /-- About to lock `close_mutex_`. -/
  | wantsClose (call : PoolCall)
  /-- Has `close_mutex_`, and is about to lock `lifecycle_mutex_`. -/
  | wantsLifecycle (call : PoolCall)
  /-- `BoundedTaskExecutor::submit`, with both. -/
  | enqueuing
  /-- `BoundedTaskExecutor::shutdown`, with both, and the workers it has yet to join. -/
  | joining (workers : List ℕ)
  | exited
  deriving DecidableEq

/-- A thread, and where it is. -/
structure CloserThread where
  kind : ThreadKind
  phase : CloserPhase
  deriving DecidableEq

namespace CloserThread

/-- It has `close_mutex_`. -/
def Holding (t : CloserThread) : Prop :=
  match t.phase with
  | .wantsLifecycle _ | .enqueuing | .joining _ => True
  | _ => False

/-- It has `close_mutex_`, and is to join the workers. -/
def Closing (t : CloserThread) : Prop :=
  match t.phase with
  | .wantsLifecycle .close | .joining _ => True
  | _ => False

/-- It is an attached worker whose callback waits for `close_mutex_`. -/
def Waiting (t : CloserThread) : Prop :=
  t.kind = .attached ∧ ∃ call, t.phase = .wantsClose call

theorem Closing.holding {t : CloserThread} (h : t.Closing) : t.Holding := by
  obtain ⟨kind, phase⟩ := t
  cases phase with
  | wantsLifecycle call | enqueuing | joining workers => trivial
  | _ => exact h

end CloserThread

/-! ## Steps -/

/-- A pool, its executor and the threads that call them. -/
structure ClosingPool where
  workerCount : ℕ
  queueCapacity : ℕ
  threads : List CloserThread := []
  /-- `workers_`, by their places among the threads. -/
  workers : List ℕ := []
  closeHolder : Option ℕ := none
  lifecycleHolder : Option ℕ := none
  /-- The pool is closed. -/
  closed : Bool := false
  stopping : Bool := false
  queued : ℕ := 0

namespace ClosingPool

/-- A thread goes on to something else. -/
def setThread (s : ClosingPool) (i : ℕ) (t : CloserThread) : ClosingPool :=
  { s with threads := s.threads.set i t }

/-- What `submit` of the executor does : without room in the queue, or shut down, it rejects
the job. It starts the workers that are missing, or fails to, and enqueues the job. -/
def Enqueues (s : ClosingPool) (started : ℕ) (accepted : Bool) : Prop :=
  if s.stopping ∨ s.queueCapacity ≤ s.queued then started = 0 ∧ accepted = false
  else started ≤ s.workerCount - s.workers.length ∧
    (accepted = true ↔ started = s.workerCount - s.workers.length)

/-- The executor after `submit`, which lets both mutexes go. -/
def enqueue (s : ClosingPool) (i started : ℕ) (accepted : Bool) : ClosingPool :=
  { s with
    threads := s.threads.set i ⟨.outside, .idle⟩ ++ List.replicate started ⟨.attached, .idle⟩
    workers := s.workers ++ List.range' s.threads.length started
    queued := s.queued + accepted.toNat
    closeHolder := none
    lifecycleHolder := none }

/-- Where a thread is after a call of `close`. -/
def afterClose : ThreadKind → CloserPhase
  | .outside => .idle
  | .attached | .detached => .callback

/-- `close()` has `close_mutex_`, and closes the pool. -/
def lockClose (s : ClosingPool) (i : ℕ) (t : CloserThread) (call : PoolCall) : ClosingPool :=
  { s with
    threads := s.threads.set i ⟨t.kind, .wantsLifecycle call⟩
    closeHolder := some i
    closed := s.closed || call = .close }

/-- `submit` goes on to enqueue its job. `shutdown` drops the jobs that are queued, and begins
to join the workers. -/
def lockLifecycle (s : ClosingPool) (i : ℕ) (t : CloserThread) : PoolCall → ClosingPool
  | .submit => { s with
      threads := s.threads.set i ⟨t.kind, .enqueuing⟩
      lifecycleHolder := some i }
  | .close => { s with
      threads := s.threads.set i ⟨t.kind, .joining s.workers⟩
      lifecycleHolder := some i
      stopping := true
      queued := 0 }

/-- `close()` returns. -/
def closeDone (s : ClosingPool) (i : ℕ) (t : CloserThread) : ClosingPool :=
  { s with
    threads := s.threads.set i ⟨t.kind, afterClose t.kind⟩
    closeHolder := none
    lifecycleHolder := none }

/-- The executor before its workers are started. -/
def started (workerCount queueCapacity : ℕ) : ClosingPool where
  workerCount := workerCount
  queueCapacity := queueCapacity

/-- A thread that has `close_mutex_` or `lifecycle_mutex_` is joining a worker that waits for
one of them. -/
def Cycle (s : ClosingPool) : Prop :=
  ∃ (i w : ℕ) (rest : List ℕ) (t u : CloserThread),
    (s.closeHolder = some i ∨ s.lifecycleHolder = some i) ∧
    s.threads[i]? = some t ∧ t.phase = .joining (w :: rest) ∧ w ≠ i ∧
    s.threads[w]? = some u ∧ u.kind = .attached ∧
    ∃ call, u.phase = .wantsClose call ∨ u.phase = .wantsLifecycle call

end ClosingPool

/-- What a condition on steps may refer to. -/
inductive CloserLabel
  /-- A thread calls `close()`. -/
  | call (i : ℕ)
  /-- It locks `close_mutex_` in `close()`. -/
  | lock (i : ℕ)
  | other

/-- The label of a step of a call. -/
def PoolCall.label (label : ℕ → CloserLabel) (i : ℕ) : PoolCall → CloserLabel
  | .submit => .other
  | .close => label i

/-- A step of one of the threads. -/
inductive CloserStep : ClosingPool → CloserLabel → ClosingPool → Prop
  | spawn (s : ClosingPool) :
    CloserStep s .other { s with threads := s.threads ++ [⟨.outside, .idle⟩] }
  /-- No callback calls `submit`. -/
  | callSubmit {s : ClosingPool} {i : ℕ} (h : s.threads[i]? = some ⟨.outside, .idle⟩) :
    CloserStep s .other (s.setThread i ⟨.outside, .wantsClose .submit⟩)
  | callClose {s : ClosingPool} {i : ℕ} {kind : ThreadKind}
    (h : s.threads[i]? = some ⟨kind, ClosingPool.afterClose kind⟩) :
    CloserStep s (.call i) (s.setThread i ⟨kind, .wantsClose .close⟩)
  /-- `submit` of a closed pool. -/
  | submitClosed {s : ClosingPool} {i : ℕ} {t : CloserThread} (h : s.threads[i]? = some t)
    (hphase : t.phase = .wantsClose .submit) (hfree : s.closeHolder = none)
    (hclosed : s.closed = true) : CloserStep s .other (s.setThread i ⟨t.kind, .idle⟩)
  | lockClose {s : ClosingPool} {i : ℕ} {t : CloserThread} {call : PoolCall}
    (h : s.threads[i]? = some t) (hphase : t.phase = .wantsClose call)
    (hfree : s.closeHolder = none) (hopen : call = .submit → s.closed = false) :
    CloserStep s (call.label .lock i) (s.lockClose i t call)
  | lockLifecycle {s : ClosingPool} {i : ℕ} {t : CloserThread} {call : PoolCall}
    (h : s.threads[i]? = some t) (hphase : t.phase = .wantsLifecycle call)
    (hfree : s.lifecycleHolder = none) : CloserStep s .other (s.lockLifecycle i t call)
  | enqueue {s : ClosingPool} {i : ℕ} {t : CloserThread} (h : s.threads[i]? = some t)
    (hphase : t.phase = .enqueuing) {started : ℕ} {accepted : Bool}
    (henqueues : s.Enqueues started accepted) : CloserStep s .other (s.enqueue i started accepted)
  /-- A worker takes a job. -/
  | take {s : ClosingPool} {i : ℕ} {t : CloserThread} (h : s.threads[i]? = some t)
    (hworker : t.kind ≠ .outside) (hphase : t.phase = .idle) (hjob : s.queued ≠ 0) :
    CloserStep s .other { s.setThread i ⟨t.kind, .callback⟩ with queued := s.queued - 1 }
  | callbackDone {s : ClosingPool} {i : ℕ} {t : CloserThread} (h : s.threads[i]? = some t)
    (hphase : t.phase = .callback) : CloserStep s .other (s.setThread i ⟨t.kind, .idle⟩)
  | exit {s : ClosingPool} {i : ℕ} {t : CloserThread} (h : s.threads[i]? = some t)
    (hworker : t.kind ≠ .outside) (hphase : t.phase = .idle) (hstopping : s.stopping = true)
    (hempty : s.queued = 0) : CloserStep s .other (s.setThread i ⟨t.kind, .exited⟩)
  /-- The worker is not joinable. -/
  | skip {s : ClosingPool} {i w : ℕ} {rest : List ℕ} {t u : CloserThread}
    (h : s.threads[i]? = some t) (hphase : t.phase = .joining (w :: rest))
    (hw : s.threads[w]? = some u) (hdetached : u.kind ≠ .attached) :
    CloserStep s .other (s.setThread i ⟨t.kind, .joining rest⟩)
  /-- The worker is the caller. -/
  | detach {s : ClosingPool} {i : ℕ} {rest : List ℕ} {t : CloserThread}
    (h : s.threads[i]? = some t) (hphase : t.phase = .joining (i :: rest))
    (hkind : t.kind = .attached) : CloserStep s .other (s.setThread i ⟨.detached, .joining rest⟩)
  | join {s : ClosingPool} {i w : ℕ} {rest : List ℕ} {t : CloserThread}
    (h : s.threads[i]? = some t) (hphase : t.phase = .joining (w :: rest)) (hne : w ≠ i)
    (hw : s.threads[w]? = some ⟨.attached, .exited⟩) :
    CloserStep s .other
      ((s.setThread w ⟨.detached, .exited⟩).setThread i ⟨t.kind, .joining rest⟩)
  | closeDone {s : ClosingPool} {i : ℕ} {t : CloserThread} (h : s.threads[i]? = some t)
    (hphase : t.phase = .joining []) : CloserStep s .other (s.closeDone i t)

namespace ClosingPool

/-- No callback of an attached worker comes to wait while a thread is closing, and no thread
begins to close while one waits. -/
def Apart (s : ClosingPool) : CloserLabel → Prop
  | .call i => ∀ t, s.threads[i]? = some t → t.kind = .attached →
    ∀ (h : ℕ) (u : CloserThread), s.threads[h]? = some u → ¬ u.Closing
  | .lock i => ∀ (w : ℕ) (u : CloserThread), w ≠ i → s.threads[w]? = some u → ¬ u.Waiting
  | .other => True

/-! ## What the steps keep -/

/-- One thread at most has `close_mutex_`, and no attached worker but itself waits while a
thread is closing. -/
structure Inv (s : ClosingPool) : Prop where
  holder : ∀ (i : ℕ) (t : CloserThread), s.threads[i]? = some t → t.Holding →
    s.closeHolder = some i
  alone : ∀ (h w : ℕ) (t u : CloserThread), w ≠ h → s.threads[h]? = some t → t.Closing →
    s.threads[w]? = some u → ¬ u.Waiting

theorem inv_started (workerCount queueCapacity : ℕ) : (started workerCount queueCapacity).Inv :=
  ⟨fun i t h => by simp [started] at h, fun h w t u _ ht => by simp [started] at ht⟩

variable {s s' : ClosingPool}

theorem Inv.not_cycle (hs : s.Inv) : ¬ s.Cycle := by
  rintro ⟨i, w, rest, t, u, -, ht, hjoining, hne, hu, hattached, call, hwants | hwants⟩
  · have hclosing : t.Closing := by simp [CloserThread.Closing, hjoining]
    exact hs.alone i w t u hne ht hclosing hu ⟨hattached, call, hwants⟩
  · have hholding : t.Holding := by simp [CloserThread.Holding, hjoining]
    have hholding' : u.Holding := by simp [CloserThread.Holding, hwants]
    have hsame := (hs.holder i t ht hholding).symm.trans (hs.holder w u hu hholding')
    exact hne (Option.some.inj hsame).symm

/-- A step after which threads hold, close and wait only where they did before. -/
theorem Inv.frame (hs : s.Inv) (hholder : s'.closeHolder = s.closeHolder)
    (hthreads : ∀ (j : ℕ) (u' : CloserThread), s'.threads[j]? = some u' →
      u'.Holding ∨ u'.Waiting → ∃ u, s.threads[j]? = some u ∧ (u'.Holding → u.Holding) ∧
        (u'.Closing → u.Closing) ∧ (u'.Waiting → u.Waiting)) : s'.Inv := by
  refine ⟨fun i t ht hholding => ?_, fun h w t u hne ht hclosing hu hwaiting => ?_⟩
  · obtain ⟨t₀, ht₀, hkeeps, -⟩ := hthreads i t ht (Or.inl hholding)
    rw [hholder]
    exact hs.holder i t₀ ht₀ (hkeeps hholding)
  · obtain ⟨t₀, ht₀, -, hkeeps, -⟩ := hthreads h t ht (Or.inl hclosing.holding)
    obtain ⟨u₀, hu₀, -, -, hkeeps'⟩ := hthreads w u hu (Or.inr hwaiting)
    exact hs.alone h w t₀ u₀ hne ht₀ (hkeeps hclosing) hu₀ (hkeeps' hwaiting)

/-- A step that changes one thread. -/
theorem Inv.set (hs : s.Inv) (hholder : s'.closeHolder = s.closeHolder) {i : ℕ}
    {t t' : CloserThread} (h : s.threads[i]? = some t) (hset : s'.threads = s.threads.set i t')
    (hholding : t'.Holding → t.Holding) (hclosing : t'.Closing → t.Closing)
    (hwaiting : t'.Waiting → t.Waiting) : s'.Inv := by
  refine hs.frame hholder fun j u' hu' _ => ?_
  rw [hset, List.getElem?_set] at hu'
  split at hu'
  · rename_i hij
    subst hij
    split at hu'
    · cases hu'
      exact ⟨t, h, hholding, hclosing, hwaiting⟩
    · contradiction
  · exact ⟨u', hu', id, id, id⟩

/-- A step after which no thread has `close_mutex_`. -/
theorem Inv.release (hs : s.Inv) {i : ℕ} (hi : s.closeHolder = some i)
    (hthreads : ∀ (j : ℕ) (u : CloserThread), s'.threads[j]? = some u → u.Holding →
      j ≠ i ∧ s.threads[j]? = some u) : s'.Inv := by
  have hnone : ∀ (j : ℕ) (u : CloserThread), s'.threads[j]? = some u → ¬ u.Holding := by
    intro j u hu hholding
    obtain ⟨hne, hu⟩ := hthreads j u hu hholding
    have hj := hs.holder j u hu hholding
    rw [hi] at hj
    exact hne (Option.some.inj hj).symm
  exact ⟨fun j u hu hholding => absurd hholding (hnone j u hu),
    fun h w t u _ ht hclosing => absurd hclosing.holding (hnone h t ht)⟩

theorem Inv.callClose (hs : s.Inv) {i : ℕ} {kind : ThreadKind}
    (h : s.threads[i]? = some ⟨kind, afterClose kind⟩) (hapart : s.Apart (.call i)) :
    (s.setThread i ⟨kind, .wantsClose .close⟩).Inv := by
  by_cases hkind : kind = .attached
  · have hnone := hapart _ h hkind
    refine ⟨fun j t ht hholding => ?_, fun j w t u _ ht hclosing => ?_⟩
    · rw [setThread, List.getElem?_set] at ht
      split at ht
      · split at ht
        · cases ht
          exact hholding.elim
        · contradiction
      · exact hs.holder j t ht hholding
    · rw [setThread, List.getElem?_set] at ht
      split at ht
      · split at ht
        · cases ht
          exact hclosing.elim
        · contradiction
      · exact absurd hclosing (hnone j t ht)
  · exact hs.set rfl h rfl False.elim False.elim fun hwaiting => absurd hwaiting.1 hkind

theorem Inv.lockClose (hs : s.Inv) {i : ℕ} {t : CloserThread} {call : PoolCall}
    (h : s.threads[i]? = some t) (hfree : s.closeHolder = none)
    (hapart : s.Apart (call.label .lock i)) : (s.lockClose i t call).Inv := by
  have hnone : ∀ (j : ℕ) (u : CloserThread), s.threads[j]? = some u → ¬ u.Holding := by
    intro j u hu hholding
    have hj := hs.holder j u hu hholding
    rw [hfree] at hj
    contradiction
  have hthreads : ∀ (j : ℕ) (u : CloserThread), (s.lockClose i t call).threads[j]? = some u →
      j = i ∧ u = ⟨t.kind, .wantsLifecycle call⟩ ∨ j ≠ i ∧ s.threads[j]? = some u := by
    intro j u hu
    rw [ClosingPool.lockClose, List.getElem?_set] at hu
    split at hu
    · rename_i hij
      split at hu
      · exact Or.inl ⟨hij.symm, (Option.some.inj hu).symm⟩
      · contradiction
    · rename_i hij
      exact Or.inr ⟨Ne.symm hij, hu⟩
  refine ⟨fun j u hu hholding => ?_, fun j w u v hne hu hclosing hv hwaiting => ?_⟩
  · rcases hthreads j u hu with ⟨rfl, -⟩ | ⟨-, hu⟩
    · rfl
    · exact absurd hholding (hnone j u hu)
  · rcases hthreads j u hu with ⟨rfl, rfl⟩ | ⟨-, hu⟩
    · rcases hthreads w v hv with ⟨rfl, -⟩ | ⟨-, hthread⟩
      · exact hne rfl
      · cases call with
        | submit => exact hclosing
        | close => exact hapart w v hne hthread hwaiting
    · exact hnone j u hu hclosing.holding

/-- Threads that are started hold nothing. -/
theorem Inv.append (hs : s.Inv) {i : ℕ} (hi : s.closeHolder = some i) {t' : CloserThread}
    {more : List CloserThread} (hset : s'.threads = s.threads.set i t' ++ more)
    (hidle : ¬ t'.Holding) (hmore : ∀ u ∈ more, ¬ u.Holding) : s'.Inv := by
  refine hs.release hi fun j u hu hholding => ?_
  rw [hset] at hu
  rcases Nat.lt_or_ge j (s.threads.set i t').length with hj | hj
  · rw [List.getElem?_append_left hj, List.getElem?_set] at hu
    split at hu
    · split at hu
      · cases hu
        exact absurd hholding hidle
      · contradiction
    · rename_i hij
      exact ⟨Ne.symm hij, hu⟩
  · rw [List.getElem?_append_right hj] at hu
    exact absurd hholding (hmore u (List.mem_of_getElem? hu))

/-- What a step keeps, if it leaves closing and waiting apart. -/
theorem Inv.step (hs : s.Inv) {a : CloserLabel} (hstep : Meeting Apart CloserStep s a s') :
    s'.Inv := by
  obtain ⟨hapart, hstep⟩ := hstep
  cases hstep with
  | spawn =>
    refine hs.frame rfl fun j u hu hnot => ?_
    rcases Nat.lt_or_ge j s.threads.length with hj | hj
    · rw [List.getElem?_append_left hj] at hu
      exact ⟨u, hu, id, id, id⟩
    · rw [List.getElem?_append_right hj, List.getElem?_singleton] at hu
      split at hu
      · cases hu
        rcases hnot with hholding | ⟨hkind, -⟩
        · exact hholding.elim
        · contradiction
      · contradiction
  | callSubmit h =>
    exact hs.set rfl h rfl False.elim False.elim fun hwaiting => nomatch hwaiting.1
  | callClose h => exact hs.callClose h hapart
  | submitClosed h hphase hfree hclosed | callbackDone h hphase | exit h hworker hphase =>
    exact hs.set rfl h rfl False.elim False.elim fun ⟨_, _, hwants⟩ => nomatch hwants
  | lockClose h hphase hfree hopen => exact hs.lockClose h hfree hapart
  | @lockLifecycle i t call h hphase hfree =>
    have hholding : t.Holding := by simp [CloserThread.Holding, hphase]
    cases call with
    | submit =>
      exact hs.set rfl h rfl (fun _ => hholding) False.elim fun ⟨_, _, hwants⟩ => nomatch hwants
    | close =>
      have hclosing : t.Closing := by simp [CloserThread.Closing, hphase]
      exact hs.set rfl h rfl (fun _ => hholding) (fun _ => hclosing)
        fun ⟨_, _, hwants⟩ => nomatch hwants
  | @enqueue i t h hphase started accepted henqueues =>
    have hholding : t.Holding := by simp [CloserThread.Holding, hphase]
    refine hs.append (hs.holder i t h hholding) rfl id fun u hu => ?_
    rw [List.eq_of_mem_replicate hu]
    exact id
  | take h hworker hphase hjob =>
    exact hs.set rfl h rfl False.elim False.elim fun ⟨_, _, hwants⟩ => nomatch hwants
  | @skip i w rest t u h hphase hw hdetached =>
    have hclosing : t.Closing := by simp [CloserThread.Closing, hphase]
    exact hs.set rfl h rfl (fun _ => hclosing.holding) (fun _ => hclosing)
      fun ⟨_, _, hwants⟩ => nomatch hwants
  | @detach i rest t h hphase hkind =>
    have hclosing : t.Closing := by simp [CloserThread.Closing, hphase]
    exact hs.set rfl h rfl (fun _ => hclosing.holding) (fun _ => hclosing)
      fun ⟨_, _, hwants⟩ => nomatch hwants
  | @join i w rest t h hphase hne hw =>
    have hclosing : t.Closing := by simp [CloserThread.Closing, hphase]
    have hjoined : (s.setThread w ⟨.detached, .exited⟩).Inv :=
      hs.set rfl hw rfl False.elim False.elim fun ⟨_, _, hwants⟩ => nomatch hwants
    have hthread : (s.setThread w ⟨.detached, .exited⟩).threads[i]? = some t := by
      rw [setThread, List.getElem?_set_ne hne]
      exact h
    exact hjoined.set rfl hthread rfl (fun _ => hclosing.holding) (fun _ => hclosing)
      fun ⟨_, _, hwants⟩ => nomatch hwants
  | @closeDone i t h hphase =>
    have hholding : t.Holding := by simp [CloserThread.Holding, hphase]
    refine hs.append (hs.holder i t h hholding) (List.append_nil _).symm ?_ nofun
    cases t.kind <;> exact id

/-- In a run that keeps the callbacks of attached workers and the closing threads apart, no
thread that closes the pool joins a worker that waits for it. -/
theorem not_cycle_of_apart {workerCount queueCapacity : ℕ} {as : List CloserLabel}
    (h : Run (Meeting Apart CloserStep) (started workerCount queueCapacity) as s) : ¬ s.Cycle :=
  (h.invariant (fun hs => hs.step) (inv_started workerCount queueCapacity)).not_cycle

/-- A callback closes the pool, and its worker is detached. -/
def closedByCallback : ClosingPool where
  workerCount := 1
  queueCapacity := 1
  threads := [⟨.outside, .idle⟩, ⟨.detached, .callback⟩]
  workers := [1]
  closed := true
  stopping := true

/-- The pool while a callback runs. -/
def callbackRunning : ClosingPool :=
  { started 1 1 with
    threads := [⟨.outside, .idle⟩, ⟨.attached, .callback⟩]
    workers := [1] }

/-- A job is submitted, and a worker runs its callback. -/
theorem run_callback {C : ClosingPool → CloserLabel → Prop} (hC : ∀ s, C s .other) :
    Run (Meeting C CloserStep) (started 1 1) [.other, .other, .other, .other, .other, .other]
      callbackRunning :=
  .cons ⟨hC _, .spawn _⟩ <|
    .cons ⟨hC _, .callSubmit (i := 0) rfl⟩ <|
    .cons ⟨hC _, @CloserStep.lockClose _ 0 ⟨.outside, .wantsClose .submit⟩ .submit rfl rfl rfl
      fun _ => rfl⟩ <|
    .cons ⟨hC _, @CloserStep.lockLifecycle _ 0 ⟨.outside, .wantsLifecycle .submit⟩ .submit rfl rfl
      rfl⟩ <|
    .cons ⟨hC _, @CloserStep.enqueue _ 0 ⟨.outside, .enqueuing⟩ rfl rfl 1 true
      (by unfold Enqueues; decide)⟩ <|
    .cons ⟨hC _, @CloserStep.take _ 1 ⟨.attached, .idle⟩ rfl (by decide) rfl (by decide)⟩ .nil

/-- The callback closes the pool, with nobody else in the way, and its worker is detached. -/
theorem not_cycle_closedByCallback : ¬ closedByCallback.Cycle := by
  have hclose : Run (Meeting Apart CloserStep) callbackRunning
      [.call 1, .lock 1, .other, .other, .other] closedByCallback := by
    have hnobody : ∀ (h : ℕ) (u : CloserThread), callbackRunning.threads[h]? = some u →
        ¬ u.Closing := by
      intro h u hu
      have hmem := List.mem_of_getElem? hu
      simp only [callbackRunning, List.mem_cons, List.not_mem_nil, or_false] at hmem
      rcases hmem with rfl | rfl <;> exact id
    have hnowaiting : ∀ (w : ℕ) (u : CloserThread), w ≠ 1 →
        (callbackRunning.setThread 1 ⟨.attached, .wantsClose .close⟩).threads[w]? = some u →
        ¬ u.Waiting := by
      intro w u hne hu
      rw [setThread, List.getElem?_set_ne (Ne.symm hne)] at hu
      have hmem := List.mem_of_getElem? hu
      simp only [callbackRunning, List.mem_cons, List.not_mem_nil, or_false] at hmem
      rcases hmem with rfl | rfl
      · exact fun hwaiting => nomatch hwaiting.1
      · exact fun ⟨_, _, hwants⟩ => nomatch hwants
    exact .cons ⟨fun _ _ _ => hnobody, .callClose (i := 1) rfl⟩ <|
      .cons ⟨hnowaiting, @CloserStep.lockClose _ 1 ⟨.attached, .wantsClose .close⟩ .close rfl rfl
        rfl nofun⟩ <|
      .cons ⟨trivial, @CloserStep.lockLifecycle _ 1 ⟨.attached, .wantsLifecycle .close⟩ .close rfl
        rfl rfl⟩ <|
      .cons ⟨trivial, @CloserStep.detach _ 1 [] ⟨.attached, .joining [1]⟩ rfl rfl rfl⟩ <|
      .cons ⟨trivial, @CloserStep.closeDone _ 1 ⟨.detached, .joining []⟩ rfl rfl⟩ .nil
  exact not_cycle_of_apart ((run_callback fun _ => trivial).append hclose)

/-- A thread closes the pool, and joins the worker whose callback closes it too. -/
theorem closers_cycle : ∃ as s, Run CloserStep (started 1 1) as s ∧ s.Cycle := by
  have hstart : Run CloserStep (started 1 1) _ callbackRunning :=
    (run_callback (C := fun _ _ => True) fun _ => trivial).of_meeting
  have hclose : ∃ as s, Run CloserStep callbackRunning as s ∧ s.Cycle := by
    refine ⟨_, _, .cons (.callClose (i := 0) rfl) <|
      .cons (@CloserStep.lockClose _ 0 ⟨.outside, .wantsClose .close⟩ .close rfl rfl rfl nofun) <|
      .cons (@CloserStep.lockLifecycle _ 0 ⟨.outside, .wantsLifecycle .close⟩ .close rfl rfl rfl) <|
      .cons (@CloserStep.callClose _ 1 .attached rfl) .nil,
      0, 1, [], ⟨.outside, .joining [1]⟩, ⟨.attached, .wantsClose .close⟩, Or.inl rfl, rfl, rfl,
      by decide, rfl, rfl, .close, Or.inl rfl⟩
  obtain ⟨as, s, hrun, hcycle⟩ := hclose
  exact ⟨_, s, hstart.append hrun, hcycle⟩

/-- Threads that close a pool can wait for each other. -/
theorem not_forall_not_cycle : ¬ ∀ (workerCount queueCapacity : ℕ) (as : List CloserLabel)
    (s : ClosingPool), Run CloserStep (started workerCount queueCapacity) as s → ¬ s.Cycle := by
  intro h
  obtain ⟨as, s, hrun, hcycle⟩ := closers_cycle
  exact h 1 1 as s hrun hcycle

end ClosingPool

end CppLinq
