import CppLinq.PoolClosing

/-!
# What becomes of a submitted job

The jobs of a `BoundedTaskExecutor` (`driver/async_executor.h`), numbered as they are
submitted. A job is rejected at once, or queued, and then run by a worker or cancelled by a
shutdown. In any order of steps every job is in one of these places (`Inv.places`), so its
future is satisfied once at most, and once when it is in no other place
(`Delivers.of_run`).
-/

namespace CppLinq

/-! ## Steps -/

/-- What satisfied the future of a job. -/
inductive JobOutcome
  /-- Its own result or exception. -/
  | ran
  | cancelled
  | rejected
  deriving DecidableEq

/-- Where a thread is in a call of the executor. -/
inductive ExecutorCall
  | none
  /-- About to lock `lifecycle_mutex_`. -/
  | wantsSubmit
  | wantsShutdown
  /-- `shutdown` has `lifecycle_mutex_`. -/
  | locked
  /-- It has swapped the queue out, and has these jobs to cancel. -/
  | cancelling (jobs : List ℕ)
  | joining (workers : List ℕ)
  | exited
  deriving DecidableEq

/-- A thread of the program, or a worker. -/
structure ExecutorThread where
  kind : ThreadKind
  /-- The job that a worker runs, and whether the job has a lease of a connection. -/
  job : Option (ℕ × Bool) := none
  call : ExecutorCall := .none
  deriving DecidableEq

/-- `BoundedTaskExecutor`, with the threads that call it and its workers. -/
structure Executor where
  workerCount : ℕ
  queueCapacity : ℕ
  threads : List ExecutorThread := []
  workers : List ℕ := []
  lifecycleHolder : Option ℕ := none
  stopping : Bool := false
  queue : List ℕ := []
  /-- The number of jobs submitted. -/
  submitted : ℕ := 0
  /-- The jobs that workers took from the queue, in order. -/
  taken : List ℕ := []
  /-- The jobs whose futures are satisfied, in order. -/
  settled : List (ℕ × JobOutcome) := []

namespace Executor

/-- A thread goes on to something else. -/
def setThread (s : Executor) (i : ℕ) (t : ExecutorThread) : Executor :=
  { s with threads := s.threads.set i t }

/-- A job is rejected without room in the queue or once the executor is shut down. -/
def Rejects (s : Executor) : Prop :=
  s.stopping = true ∨ s.queueCapacity ≤ s.queue.length

/-- `submit` of a job that is rejected, where some workers may have been started. -/
def reject (s : Executor) (i started : ℕ) (t : ExecutorThread) : Executor :=
  { s with
    threads := s.threads.set i { t with call := .none } ++
      List.replicate started { kind := .attached }
    workers := s.workers ++ List.range' s.threads.length started
    submitted := s.submitted + 1
    settled := s.settled ++ [(s.submitted, .rejected)] }

/-- `submit` of a job that is queued. -/
def accept (s : Executor) (i started : ℕ) (t : ExecutorThread) : Executor :=
  { s with
    threads := s.threads.set i { t with call := .none } ++
      List.replicate started { kind := .attached }
    workers := s.workers ++ List.range' s.threads.length started
    submitted := s.submitted + 1
    queue := s.queue ++ [s.submitted] }

/-- The constructor : one worker and one place in the queue, at least. -/
def started (workerCount queueCapacity : ℕ) : Executor where
  workerCount := if workerCount = 0 then 1 else workerCount
  queueCapacity := if queueCapacity = 0 then 1 else queueCapacity

end Executor

/-- A thread can make a call : outside, or in a job. -/
def ExecutorThread.Free (t : ExecutorThread) : Prop :=
  t.call = .none ∧ (t.kind = .outside ∨ t.job.isSome)

/-- What a condition on steps may refer to. -/
inductive ExecutorLabel
  /-- A thread is started, or a job acquires a connection. -/
  | begins
  | callSubmit (i : ℕ)
  | callShutdown (i : ℕ)
  /-- `shutdown` locks `lifecycle_mutex_`. -/
  | lockShutdown (i : ℕ)
  /-- A call or a job goes on. -/
  | goesOn

/-- A step of one of the threads. -/
inductive ExecutorStep : Executor → ExecutorLabel → Executor → Prop
  | spawn (s : Executor) :
    ExecutorStep s .begins { s with threads := s.threads ++ [{ kind := .outside }] }
  | callSubmit {s : Executor} {i : ℕ} {t : ExecutorThread} (h : s.threads[i]? = some t)
    (hfree : t.Free) :
    ExecutorStep s (.callSubmit i) (s.setThread i { t with call := .wantsSubmit })
  | callShutdown {s : Executor} {i : ℕ} {t : ExecutorThread} (h : s.threads[i]? = some t)
    (hfree : t.Free) :
    ExecutorStep s (.callShutdown i) (s.setThread i { t with call := .wantsShutdown })
  | reject {s : Executor} {i : ℕ} {t : ExecutorThread} (h : s.threads[i]? = some t)
    (hcall : t.call = .wantsSubmit) (hfree : s.lifecycleHolder = none) (hrejects : s.Rejects) :
    ExecutorStep s .goesOn (s.reject i 0 t)
  /-- A worker cannot be started. -/
  | startFails {s : Executor} {i : ℕ} {t : ExecutorThread} (h : s.threads[i]? = some t)
    (hcall : t.call = .wantsSubmit) (hfree : s.lifecycleHolder = none) (hroom : ¬ s.Rejects)
    {started : ℕ} (hstarted : started < s.workerCount - s.workers.length) :
    ExecutorStep s .goesOn (s.reject i started t)
  | accept {s : Executor} {i : ℕ} {t : ExecutorThread} (h : s.threads[i]? = some t)
    (hcall : t.call = .wantsSubmit) (hfree : s.lifecycleHolder = none) (hroom : ¬ s.Rejects) :
    ExecutorStep s .goesOn (s.accept i (s.workerCount - s.workers.length) t)
  | lockShutdown {s : Executor} {i : ℕ} {t : ExecutorThread} (h : s.threads[i]? = some t)
    (hcall : t.call = .wantsShutdown) (hfree : s.lifecycleHolder = none) :
    ExecutorStep s (.lockShutdown i)
      { s.setThread i { t with call := .locked } with lifecycleHolder := some i }
  | swap {s : Executor} {i : ℕ} {t : ExecutorThread} (h : s.threads[i]? = some t)
    (hcall : t.call = .locked) :
    ExecutorStep s .goesOn { s.setThread i { t with call := .cancelling s.queue } with
      stopping := true
      queue := [] }
  | cancel {s : Executor} {i n : ℕ} {rest : List ℕ} {t : ExecutorThread}
    (h : s.threads[i]? = some t) (hcall : t.call = .cancelling (n :: rest)) :
    ExecutorStep s .goesOn { s.setThread i { t with call := .cancelling rest } with
      settled := s.settled ++ [(n, .cancelled)] }
  | joinWorkers {s : Executor} {i : ℕ} {t : ExecutorThread} (h : s.threads[i]? = some t)
    (hcall : t.call = .cancelling []) :
    ExecutorStep s .goesOn (s.setThread i { t with call := .joining s.workers })
  /-- The worker is not joinable. -/
  | skip {s : Executor} {i w : ℕ} {rest : List ℕ} {t u : ExecutorThread}
    (h : s.threads[i]? = some t) (hcall : t.call = .joining (w :: rest))
    (hw : s.threads[w]? = some u) (hdetached : u.kind ≠ .attached) :
    ExecutorStep s .goesOn (s.setThread i { t with call := .joining rest })
  | detach {s : Executor} {i : ℕ} {rest : List ℕ} {t : ExecutorThread}
    (h : s.threads[i]? = some t) (hcall : t.call = .joining (i :: rest)) :
    ExecutorStep s .goesOn (s.setThread i { t with kind := .detached, call := .joining rest })
  | join {s : Executor} {i w : ℕ} {rest : List ℕ} {t u : ExecutorThread}
    (h : s.threads[i]? = some t) (hcall : t.call = .joining (w :: rest)) (hne : w ≠ i)
    (hw : s.threads[w]? = some u) (hexited : u.call = .exited) :
    ExecutorStep s .goesOn ((s.setThread w { u with kind := .detached }).setThread i
      { t with call := .joining rest })
  | shutdownDone {s : Executor} {i : ℕ} {t : ExecutorThread} (h : s.threads[i]? = some t)
    (hcall : t.call = .joining []) :
    ExecutorStep s .goesOn { s.setThread i { t with call := .none } with lifecycleHolder := none }
  /-- A worker takes the first job of the queue. -/
  | take {s : Executor} {i n : ℕ} {rest : List ℕ} {t : ExecutorThread}
    (h : s.threads[i]? = some t) (hworker : t.kind ≠ .outside) (hcall : t.call = .none)
    (hjob : t.job = none) (hqueue : s.queue = n :: rest) :
    ExecutorStep s .goesOn { s.setThread i { t with job := some (n, false) } with
      queue := rest
      taken := s.taken ++ [n] }
  /-- The job acquires a connection. -/
  | acquire {s : Executor} {i n : ℕ} {t : ExecutorThread} (h : s.threads[i]? = some t)
    (hcall : t.call = .none) (hjob : t.job = some (n, false)) :
    ExecutorStep s .begins (s.setThread i { t with job := some (n, true) })
  /-- The function of the job is over, and with it the lease. -/
  | release {s : Executor} {i n : ℕ} {t : ExecutorThread} (h : s.threads[i]? = some t)
    (hcall : t.call = .none) (hjob : t.job = some (n, true)) :
    ExecutorStep s .goesOn (s.setThread i { t with job := some (n, false) })
  /-- The promise of the job gets its result or exception. -/
  | settle {s : Executor} {i n : ℕ} {t : ExecutorThread} (h : s.threads[i]? = some t)
    (hcall : t.call = .none) (hjob : t.job = some (n, false)) :
    ExecutorStep s .goesOn { s.setThread i { t with job := none } with
      settled := s.settled ++ [(n, .ran)] }
  | exit {s : Executor} {i : ℕ} {t : ExecutorThread} (h : s.threads[i]? = some t)
    (hworker : t.kind ≠ .outside) (hcall : t.call = .none) (hjob : t.job = none)
    (hstopping : s.stopping = true) (hempty : s.queue = []) :
    ExecutorStep s .goesOn (s.setThread i { t with call := .exited })

namespace Executor

/-! ## Where the jobs are -/

/-- The job that a thread runs. -/
def running (t : ExecutorThread) : List ℕ :=
  (t.job.map Prod.fst).toList

/-- The jobs that a thread is to cancel. -/
def toCancel (t : ExecutorThread) : List ℕ :=
  match t.call with
  | .cancelling jobs => jobs
  | _ => []

/-- The jobs of a thread. -/
def inHand (t : ExecutorThread) : List ℕ :=
  running t ++ toCancel t

/-- All jobs are accounted for, in order, and those that were taken are those that run or
have run. -/
structure Inv (s : Executor) : Prop where
  /-- Every job is queued, in the hands of a thread, or settled, and once. -/
  places : (s.queue ++ s.threads.flatMap inHand ++ s.settled.map Prod.fst).Perm
    (List.range s.submitted)
  room : s.queue.length ≤ s.queueCapacity
  empty : s.stopping = true → s.queue = []
  order : (s.taken ++ s.queue).Pairwise (· < ·)
  known : ∀ n ∈ s.taken, n < s.submitted
  runs : ∀ t ∈ s.threads, ∀ n ∈ running t, n ∈ s.taken
  cancels : ∀ t ∈ s.threads, ∀ n ∈ toCancel t, n ∉ s.taken
  ran : ∀ n o, (n, o) ∈ s.settled → (o = .ran ↔ n ∈ s.taken)

theorem inv_started (workerCount queueCapacity : ℕ) : (started workerCount queueCapacity).Inv where
  places := List.Perm.refl _
  room := Nat.zero_le _
  empty _ := rfl
  order := List.Pairwise.nil
  known := nofun
  runs := nofun
  cancels := nofun
  ran := nofun

variable {s s' : Executor} {i : ℕ} {t t' : ExecutorThread}

/-- A thread that changes what it does, but not the jobs it has in hand. -/
theorem Inv.set (hs : s.Inv) (h : s.threads[i]? = some t) (hrunning : running t' = running t)
    (hcancel : toCancel t' = toCancel t) : (s.setThread i t').Inv where
  places := by
    have hperm := flatMap_set_perm h inHand t'
    have hsame : inHand t' = inHand t := by rw [inHand, inHand, hrunning, hcancel]
    rw [hsame, List.perm_append_left_iff] at hperm
    exact ((hperm.append_left _).append_right _).trans hs.places
  room := hs.room
  empty := hs.empty
  order := hs.order
  known := hs.known
  runs := by
    refine forall_mem_set hs.runs ?_
    rw [hrunning]
    exact hs.runs t (List.mem_of_getElem? h)
  cancels := by
    refine forall_mem_set hs.cancels ?_
    rw [hcancel]
    exact hs.cancels t (List.mem_of_getElem? h)
  ran := hs.ran

/-- Threads without a job are started. -/
theorem Inv.start (hs : s.Inv) {more : List ExecutorThread} (hmore : ∀ t ∈ more, inHand t = [])
    (workers : List ℕ) : ({ s with threads := s.threads ++ more, workers } : Executor).Inv where
  places := by
    have hnone : more.flatMap inHand = [] := List.flatMap_eq_nil_iff.mpr hmore
    rw [List.flatMap_append, hnone, List.append_nil]
    exact hs.places
  room := hs.room
  empty := hs.empty
  order := hs.order
  known := hs.known
  runs := by
    intro t ht n hn
    rcases List.mem_append.mp ht with ht | ht
    · exact hs.runs t ht n hn
    · have hmem : n ∈ inHand t := List.mem_append_left _ hn
      rw [hmore t ht] at hmem
      contradiction
  cancels := by
    intro t ht n hn
    rcases List.mem_append.mp ht with ht | ht
    · exact hs.cancels t ht n hn
    · have hmem : n ∈ inHand t := List.mem_append_right _ hn
      rw [hmore t ht] at hmem
      contradiction
  ran := hs.ran

/-- No job is in two places. -/
theorem Inv.nodup (hs : s.Inv) :
    (s.queue ++ s.threads.flatMap inHand ++ s.settled.map Prod.fst).Nodup :=
  hs.places.nodup_iff.mpr List.nodup_range

/-- A job is rejected. -/
theorem Inv.rejected (hs : s.Inv) : ({ s with
    submitted := s.submitted + 1
    settled := s.settled ++ [(s.submitted, .rejected)] } : Executor).Inv where
  places := by
    rw [List.map_append, List.range_succ, ← List.append_assoc]
    exact hs.places.append_right _
  room := hs.room
  empty := hs.empty
  order := hs.order
  known n hn := Nat.lt_succ_of_lt (hs.known n hn)
  runs := hs.runs
  cancels := hs.cancels
  ran := by
    intro n o ho
    rcases List.mem_append.mp ho with ho | ho
    · exact hs.ran n o ho
    · rw [List.mem_singleton, Prod.mk.injEq] at ho
      obtain ⟨rfl, rfl⟩ := ho
      refine iff_of_false (fun h => nomatch h) fun hn => ?_
      exact Nat.lt_irrefl _ (hs.known _ hn)

/-- A job is queued. -/
theorem Inv.queued (hs : s.Inv) (hroom : ¬ s.Rejects) : ({ s with
    submitted := s.submitted + 1
    queue := s.queue ++ [s.submitted] } : Executor).Inv where
  places := by
    rw [List.range_succ]
    refine List.Perm.trans ?_ (hs.places.append_right [s.submitted])
    simp only [List.append_assoc]
    refine List.Perm.append_left s.queue ?_
    exact List.perm_append_comm.trans (by simp)
  room := by
    rw [Rejects, not_or, not_le] at hroom
    rw [List.length_append, List.length_singleton]
    exact Nat.succ_le_of_lt hroom.2
  empty h := absurd (Or.inl h) hroom
  order := by
    rw [← List.append_assoc, List.pairwise_append]
    refine ⟨hs.order, List.pairwise_singleton _ _, fun n hn m hm => ?_⟩
    rw [List.mem_singleton.mp hm]
    rcases List.mem_append.mp hn with hn | hn
    · exact hs.known n hn
    · have hmem : n ∈ List.range s.submitted :=
        hs.places.subset (List.mem_append_left _ (List.mem_append_left _ hn))
      exact List.mem_range.mp hmem
  known n hn := Nat.lt_succ_of_lt (hs.known n hn)
  runs := hs.runs
  cancels := hs.cancels
  ran := hs.ran

/-- The lock has no part in it. -/
theorem Inv.hold (hs : s.Inv) (holder : Option ℕ) :
    ({ s with lifecycleHolder := holder } : Executor).Inv :=
  ⟨hs.places, hs.room, hs.empty, hs.order, hs.known, hs.runs, hs.cancels, hs.ran⟩

/-- A job of the queue is in no other place. -/
theorem Inv.ne_of_queued (hs : s.Inv) {n m : ℕ} (hn : n ∈ s.queue)
    (hm : m ∈ s.threads.flatMap inHand ∨ m ∈ s.settled.map Prod.fst) : m ≠ n := by
  rintro rfl
  have hnodup := hs.nodup
  rw [List.append_assoc] at hnodup
  exact (List.nodup_append.mp hnodup).2.2 m hn m (List.mem_append.mpr hm) rfl

theorem Inv.lt_of_queued (hs : s.Inv) {n : ℕ} (hn : n ∈ s.queue) : n < s.submitted :=
  List.mem_range.mp
    (hs.places.subset (List.mem_append_left _ (List.mem_append_left _ hn)))

/-- A shutdown swaps the queue out. -/
theorem Inv.swap (hs : s.Inv) (h : s.threads[i]? = some t) (hcall : t.call = .locked) :
    ({ s.setThread i { t with call := .cancelling s.queue } with
      stopping := true
      queue := [] } : Executor).Inv where
  places := by
    have hperm := flatMap_set_perm h inHand { t with call := .cancelling s.queue }
    have hold : inHand t = running t := by simp [inHand, toCancel, hcall]
    have hnew : inHand { t with call := .cancelling s.queue } = running t ++ s.queue := rfl
    rw [hold, hnew, List.append_assoc, List.perm_append_left_iff] at hperm
    exact (hperm.append_right _).trans hs.places
  room := Nat.zero_le _
  empty _ := rfl
  order := by
    rw [List.append_nil]
    exact (List.pairwise_append.mp hs.order).1
  known := hs.known
  runs := forall_mem_set hs.runs (hs.runs t (List.mem_of_getElem? h))
  cancels := by
    refine forall_mem_set hs.cancels fun n hn htaken => ?_
    exact Nat.lt_irrefl n ((List.pairwise_append.mp hs.order).2.2 n htaken n hn)
  ran := hs.ran

/-- The future of a job in the hands of a thread is satisfied. -/
theorem Inv.settle (hs : s.Inv) (h : s.threads[i]? = some t) {n : ℕ} {o : JobOutcome}
    (hperm : (inHand t).Perm (n :: inHand t')) (hrunning : running t' ⊆ running t)
    (hcancel : toCancel t' ⊆ toCancel t) (ho : o = .ran ↔ n ∈ s.taken) :
    ({ s.setThread i t' with settled := s.settled ++ [(n, o)] } : Executor).Inv where
  places := by
    have hset := flatMap_set_perm h inHand t'
    have hjobs : (n :: (s.threads.set i t').flatMap inHand).Perm (s.threads.flatMap inHand) := by
      refine (List.perm_append_left_iff (inHand t')).mp ?_
      refine List.Perm.trans ?_ hset
      refine List.perm_middle.trans ?_
      exact hperm.symm.append_right _
    refine List.Perm.trans ?_ hs.places
    rw [List.map_append, List.append_assoc, List.append_assoc]
    refine List.Perm.append_left s.queue ?_
    refine List.Perm.trans ?_ (hjobs.append_right _)
    rw [← List.append_assoc]
    exact List.perm_append_comm
  room := hs.room
  empty := hs.empty
  order := hs.order
  known := hs.known
  runs := forall_mem_set hs.runs fun n hn => hs.runs t (List.mem_of_getElem? h) n (hrunning hn)
  cancels := forall_mem_set hs.cancels fun n hn =>
    hs.cancels t (List.mem_of_getElem? h) n (hcancel hn)
  ran := by
    intro m o' hm
    rcases List.mem_append.mp hm with hm | hm
    · exact hs.ran m o' hm
    · rw [List.mem_singleton, Prod.mk.injEq] at hm
      obtain ⟨rfl, rfl⟩ := hm
      exact ho

/-- A worker takes the first job. -/
theorem Inv.take (hs : s.Inv) (h : s.threads[i]? = some t) (hjob : t.job = none) {n : ℕ}
    {rest : List ℕ} (hqueue : s.queue = n :: rest) :
    ({ s.setThread i { t with job := some (n, false) } with
      queue := rest
      taken := s.taken ++ [n] } : Executor).Inv where
  places := by
    have hset := flatMap_set_perm h inHand { t with job := some (n, false) }
    have hold : inHand t = toCancel t := by simp [inHand, running, hjob]
    have hnew : inHand { t with job := some (n, false) } = n :: toCancel t := rfl
    rw [hold, hnew, List.cons_append] at hset
    have hjobs := (List.perm_append_left_iff (toCancel t)).mp
      (hset.trans List.perm_middle.symm)
    have hplaces := hs.places
    rw [hqueue] at hplaces
    refine List.Perm.trans ?_ hplaces
    refine List.Perm.append_right _ ?_
    exact (hjobs.append_left rest).trans List.perm_middle
  room := by
    have hroom := hs.room
    rw [hqueue, List.length_cons] at hroom
    exact Nat.le_of_succ_le hroom
  empty hstopping := by
    have hempty := hs.empty hstopping
    rw [hqueue] at hempty
    contradiction
  order := by
    have horder := hs.order
    rw [hqueue] at horder
    simpa using horder
  known m hm := by
    rcases List.mem_append.mp hm with hm | hm
    · exact hs.known m hm
    · rw [List.mem_singleton.mp hm]
      exact hs.lt_of_queued (hqueue ▸ List.mem_cons_self)
  runs := by
    refine forall_mem_set (fun u hu m hm => List.mem_append_left _ (hs.runs u hu m hm)) ?_
    intro m hm
    have hn : m = n := by simpa [running] using hm
    exact List.mem_append_right _ (List.mem_singleton.mpr hn)
  cancels := by
    have hn : n ∈ s.queue := hqueue ▸ List.mem_cons_self
    have hothers : ∀ u ∈ s.threads, ∀ m ∈ toCancel u, m ∉ s.taken ++ [n] := by
      intro u hu m hm hmem
      rcases List.mem_append.mp hmem with hmem | hmem
      · exact hs.cancels u hu m hm hmem
      · refine hs.ne_of_queued hn (Or.inl ?_) (List.mem_singleton.mp hmem)
        exact List.mem_flatMap.mpr ⟨u, hu, List.mem_append_right _ hm⟩
    exact forall_mem_set hothers (hothers t (List.mem_of_getElem? h))
  ran := by
    intro m o hm
    have hn : n ∈ s.queue := hqueue ▸ List.mem_cons_self
    have hne := hs.ne_of_queued hn (Or.inr (List.mem_map_of_mem hm))
    have hmem : m ∈ s.taken ++ [n] ↔ m ∈ s.taken := by simp [hne]
    exact (hs.ran m o hm).trans hmem.symm

/-- Every step keeps the accounts. -/
theorem Inv.step (hs : s.Inv) {a : ExecutorLabel} (hstep : ExecutorStep s a s') : s'.Inv := by
  cases hstep with
  | spawn =>
    refine hs.start (fun t ht => ?_) s.workers
    rw [List.mem_singleton.mp ht]
    rfl
  | callSubmit h hfree | callShutdown h hfree =>
    exact hs.set h rfl (by simp [toCancel, hfree.1])
  | @reject i t h hcall hfree hrejects =>
    have hset : (s.setThread i { t with call := .none }).Inv :=
      hs.set h rfl (by simp [toCancel, hcall])
    exact (hset.start (by simp) _).rejected
  | @startFails i t h hcall hfree hroom started hstarted =>
    have hset : (s.setThread i { t with call := .none }).Inv :=
      hs.set h rfl (by simp [toCancel, hcall])
    refine (hset.start (fun t ht => ?_) _).rejected
    rw [List.eq_of_mem_replicate ht]
    rfl
  | @accept i t h hcall hfree hroom =>
    have hset : (s.setThread i { t with call := .none }).Inv :=
      hs.set h rfl (by simp [toCancel, hcall])
    refine (hset.start (fun t ht => ?_) _).queued hroom
    rw [List.eq_of_mem_replicate ht]
    rfl
  | @lockShutdown i t h hcall hfree =>
    have hset : (s.setThread i { t with call := .locked }).Inv :=
      hs.set h rfl (by simp [toCancel, hcall])
    exact hset.hold _
  | swap h hcall => exact hs.swap h hcall
  | @cancel i n rest t h hcall =>
    have hcancel : toCancel t = n :: rest := by simp [toCancel, hcall]
    refine hs.settle h ?_ (List.Subset.refl _) ?_ ?_
    · rw [inHand, hcancel]
      exact List.perm_middle
    · rw [hcancel]
      exact List.subset_cons_self n rest
    · refine iff_of_false (fun ho => nomatch ho) ?_
      exact hs.cancels t (List.mem_of_getElem? h) n (hcancel ▸ List.mem_cons_self)
  | joinWorkers h hcall | skip h hcall | detach h hcall =>
    exact hs.set h rfl (by simp [toCancel, hcall])
  | @join i w rest t u h hcall hne hw hexited =>
    have hjoined : (s.setThread w { u with kind := .detached }).Inv := hs.set hw rfl rfl
    have hthread : (s.setThread w { u with kind := .detached }).threads[i]? = some t := by
      rw [setThread, List.getElem?_set_ne hne]
      exact h
    exact hjoined.set hthread rfl (by simp [toCancel, hcall])
  | @shutdownDone i t h hcall =>
    have hset : (s.setThread i { t with call := .none }).Inv :=
      hs.set h rfl (by simp [toCancel, hcall])
    exact hset.hold _
  | take h hworker hcall hjob hqueue => exact hs.take h hjob hqueue
  | acquire h hcall hjob | release h hcall hjob => exact hs.set h (by simp [running, hjob]) rfl
  | @settle i n t h hcall hjob =>
    have hrunning : running t = [n] := by simp [running, hjob]
    refine hs.settle h ?_ (List.nil_subset _) (List.Subset.refl _) ?_
    · rw [inHand, hrunning]
      exact List.Perm.refl _
    · refine iff_of_true rfl (hs.runs t (List.mem_of_getElem? h) n ?_)
      rw [hrunning]
      exact List.mem_singleton_self n
  | exit h hworker hcall => exact hs.set h rfl (by simp [toCancel, hcall])

theorem Inv.run (hs : s.Inv) {as : List ExecutorLabel} (h : Run ExecutorStep s as s') : s'.Inv :=
  h.invariant (fun hs => hs.step) hs

/-- Once the queue has been swapped out, no job is queued or taken. -/
theorem Inv.stopped (hs : s.Inv) (hstopping : s.stopping = true) {as : List ExecutorLabel}
    (h : Run ExecutorStep s as s') : s'.stopping = true ∧ s'.taken = s.taken := by
  refine (h.invariant (P := fun s' => s'.Inv ∧ s'.stopping = true ∧ s'.taken = s.taken) ?_
    ⟨hs, hstopping, rfl⟩).2
  rintro u _ v ⟨hu, hstopped, htaken⟩ hstep
  refine ⟨hu.step hstep, ?_⟩
  cases hstep with
  | swap => exact ⟨rfl, htaken⟩
  | take h hworker hcall hjob hqueue =>
    have hempty := hu.empty hstopped
    rw [hqueue] at hempty
    contradiction
  | _ => exact ⟨hstopped, htaken⟩

/-- What is promised of the jobs in any state. -/
structure Delivers (s : Executor) : Prop where
  /-- Every job that was submitted is queued, in the hands of a thread, or settled, in one
  way and once. -/
  places : (s.queue ++ s.threads.flatMap inHand ++ s.settled.map Prod.fst).Perm
    (List.range s.submitted)
  /-- The jobs that were cancelled or rejected have not run. -/
  ran : ∀ n o, (n, o) ∈ s.settled → (o = .ran ↔ n ∈ s.taken)
  room : s.queue.length ≤ s.queueCapacity
  order : s.taken.Pairwise (· < ·)
  /-- After a shutdown has swapped the queue out no job is taken, and none is queued. -/
  stopped : s.stopping = true → s.queue = [] ∧ ∀ (as : List ExecutorLabel) (s' : Executor),
    Run ExecutorStep s as s' → s'.taken = s.taken ∧ s'.queue = []
  /-- The lease of a job has been returned when its future is ready. -/
  lease : ∀ n o, (n, o) ∈ s.settled → ∀ t ∈ s.threads, ∀ leased, t.job ≠ some (n, leased)

/-- In every order of the steps, every job is delivered once at most, and once if it ends. -/
theorem Delivers.of_run {workerCount queueCapacity : ℕ} {as : List ExecutorLabel}
    (h : Run ExecutorStep (started workerCount queueCapacity) as s) : s.Delivers := by
  have hs : s.Inv := (inv_started workerCount queueCapacity).run h
  refine ⟨hs.places, hs.ran, hs.room, (List.pairwise_append.mp hs.order).1,
    fun hstopping => ⟨hs.empty hstopping, fun as s' hrun => ?_⟩,
    fun n o hn t ht leased hjob => ?_⟩
  · obtain ⟨hstopped, htaken⟩ := hs.stopped hstopping hrun
    exact ⟨htaken, (hs.run hrun).empty hstopped⟩
  · have hhand : n ∈ inHand t := List.mem_append_left _ (by simp [running, hjob])
    have hplace : n ∈ s.queue ++ s.threads.flatMap inHand :=
      List.mem_append_right _ (List.mem_flatMap.mpr ⟨t, ht, hhand⟩)
    exact (List.nodup_append.mp hs.nodup).2.2 n hplace n (List.mem_map_of_mem hn) rfl

end Executor

end CppLinq
