import CppLinq.ExecutorDelivery

/-!
# That a submitted job is delivered at last

The calls and jobs that have begun go on by steps that lower a measure (`work`), so they come
to an end. They stop early only where a thread that has `lifecycle_mutex_` joins a worker
whose job waits for it. In a run in which no job of an attached worker comes to wait while
another thread shuts the executor down, and no shutdown begins while one waits (`Apart`),
there is a step to take until the futures of all jobs are satisfied (`delivers`). Without the
condition a future may stay unsatisfied (`not_settled_of_joined`).
-/

namespace CppLinq

/-! ## Threads -/

/-- A thread in `shutdown` that has `lifecycle_mutex_`. -/
def ExecutorThread.Shutting (t : ExecutorThread) : Prop :=
  match t.call with
  | .locked | .cancelling _ | .joining _ => True
  | _ => False

namespace ExecutorThread

variable {t : ExecutorThread} {stopping : Bool} {workers : List ℕ}

/-- It runs a job, or is no worker. -/
def Busy (t : ExecutorThread) : Prop :=
  t.kind = .outside ∨ t.job.isSome

/-- It is an attached worker whose job waits for `lifecycle_mutex_`. -/
def Waiting (t : ExecutorThread) : Prop :=
  t.kind = .attached ∧ (t.call = .wantsSubmit ∨ t.call = .wantsShutdown)

/-- It is one whose job waits for the mutex in `shutdown`. -/
def Entering (t : ExecutorThread) : Prop :=
  t.kind = .attached ∧ t.call = .wantsShutdown

/-- What holds of a thread of an executor with these workers. -/
def Sound (stopping : Bool) (workers : List ℕ) (t : ExecutorThread) : Prop :=
  match t.call with
  | .none => True
  | .wantsSubmit | .wantsShutdown | .locked => t.Busy
  | .cancelling _ => t.Busy ∧ stopping = true
  | .joining rest => t.Busy ∧ stopping = true ∧ rest ⊆ workers
  | .exited => t.job = none ∧ stopping = true

theorem Entering.waiting (h : t.Entering) : t.Waiting :=
  ⟨h.1, Or.inr h.2⟩

theorem sound_none (h : t.call = .none) : t.Sound stopping workers := by
  simp [Sound, h]

theorem Sound.stop (h : t.Sound stopping workers) : t.Sound true workers := by
  unfold Sound at h ⊢
  split at h <;> simp_all

theorem Sound.mono (h : t.Sound stopping workers) (more : List ℕ) :
    t.Sound stopping (workers ++ more) := by
  unfold Sound at h ⊢
  split at h
  case h_6 => exact ⟨h.1, h.2.1, List.subset_append_of_subset_left _ h.2.2⟩
  all_goals simp_all

end ExecutorThread

namespace Executor

open ExecutorThread (Shutting)

variable {s s' : Executor} {i : ℕ} {t t' : ExecutorThread}

/-! ## The threads and the mutex -/

/-- The threads are where their calls have brought them, and the one that is shutting the
executor down has `lifecycle_mutex_`. -/
structure Sound (s : Executor) : Prop where
  threads : ∀ t ∈ s.threads, t.Sound s.stopping s.workers
  holder : ∀ (i : ℕ) (t : ExecutorThread), s.threads[i]? = some t →
    (Shutting t ↔ s.lifecycleHolder = some i)
  held : ∀ i, s.lifecycleHolder = some i → i < s.threads.length
  workers : ∀ w ∈ s.workers, ∃ u, s.threads[w]? = some u ∧ u.kind ≠ .outside
  count : 0 < s.workerCount
  served : s.queue ≠ [] → s.workers ≠ []

/-- A new executor is sound. -/
theorem sound_started (workerCount queueCapacity : ℕ) :
    (started workerCount queueCapacity).Sound where
  threads := nofun
  holder i t h := by simp [started] at h
  held := nofun
  workers := nofun
  count := by
    rw [started]
    split
    · exact Nat.one_pos
    · exact Nat.pos_of_ne_zero ‹_›
  served h := absurd rfl h

/-- A thread goes on, and takes the mutex or lets it go. -/
theorem Sound.hold (hs : s.Sound) (h : s.threads[i]? = some t) (t' : ExecutorThread)
    (hsound : t'.Sound s.stopping s.workers) (hkind : t.kind ≠ .outside → t'.kind ≠ .outside)
    {holder : Option ℕ} (hheld : ∀ j, holder = some j → j < s.threads.length)
    (hself : Shutting t' ↔ holder = some i)
    (hothers : ∀ (j : ℕ) (u : ExecutorThread), j ≠ i → s.threads[j]? = some u →
      (Shutting u ↔ holder = some j)) :
    ({ s.setThread i t' with lifecycleHolder := holder } : Executor).Sound where
  threads := forall_mem_set hs.threads hsound
  holder := by
    intro j u hu
    rw [setThread, List.getElem?_set] at hu
    split at hu
    · rename_i hij
      subst hij
      split at hu
      · cases hu
        exact hself
      · contradiction
    · rename_i hij
      exact hothers j u (Ne.symm hij) hu
  held j hj := by
    rw [setThread, List.length_set]
    exact hheld j hj
  workers := by
    intro w hw
    obtain ⟨u, hu, hu'⟩ := hs.workers w hw
    rw [setThread]
    by_cases hwi : i = w
    · subst hwi
      obtain rfl := Option.some.inj (h.symm.trans hu)
      exact ⟨t', List.getElem?_set_self (List.getElem?_eq_some_iff.mp h).1, hkind hu'⟩
    · exact ⟨u, by rw [List.getElem?_set_ne hwi, hu], hu'⟩
  count := hs.count
  served := hs.served

/-- A thread that goes on soundly keeps the executor sound. -/
theorem Sound.set (hs : s.Sound) (h : s.threads[i]? = some t)
    (hsound : t'.Sound s.stopping s.workers) (hkind : t.kind ≠ .outside → t'.kind ≠ .outside)
    (hshutting : Shutting t' ↔ Shutting t) : (s.setThread i t').Sound :=
  hs.hold h t' hsound hkind hs.held (hshutting.trans (hs.holder i t h)) fun j u _ hu =>
    hs.holder j u hu

/-- The accounts of the jobs have no part in it, but that the queue has workers. -/
theorem Sound.jobs (hs : s.Sound) {queue : List ℕ} (h : queue ≠ [] → s.workers ≠ [])
    (submitted : ℕ) (taken : List ℕ) (settled : List (ℕ × JobOutcome)) :
    ({ s with queue, submitted, taken, settled } : Executor).Sound :=
  ⟨hs.threads, hs.holder, hs.held, hs.workers, hs.count, h⟩

theorem Sound.stop (hs : s.Sound) : ({ s with stopping := true } : Executor).Sound :=
  ⟨fun t ht => (hs.threads t ht).stop, hs.holder, hs.held, hs.workers, hs.count, hs.served⟩

/-- Threads in no call are started, and some of them as workers. -/
theorem Sound.start (hs : s.Sound) (more : List ExecutorThread) (fresh : List ℕ)
    (hmore : ∀ t ∈ more, t.call = .none)
    (hfresh : ∀ w ∈ fresh, ∃ u, (s.threads ++ more)[w]? = some u ∧ u.kind ≠ .outside) :
    ({ s with
      threads := s.threads ++ more
      workers := s.workers ++ fresh } : Executor).Sound where
  threads t ht := by
    rcases List.mem_append.mp ht with ht | ht
    · exact (hs.threads t ht).mono fresh
    · exact ExecutorThread.sound_none (hmore t ht)
  holder := by
    intro i t h
    rcases Nat.lt_or_ge i s.threads.length with hi | hi
    · rw [List.getElem?_append_left hi] at h
      exact hs.holder i t h
    · rw [List.getElem?_append_right hi] at h
      have hcall := hmore t (List.mem_of_getElem? h)
      refine iff_of_false (by simp [Shutting, hcall]) fun hholder => ?_
      exact Nat.not_lt.mpr hi (hs.held i hholder)
  held i hi := by
    rw [List.length_append]
    exact Nat.lt_add_right _ (hs.held i hi)
  workers w hw := by
    rcases List.mem_append.mp hw with hw | hw
    · obtain ⟨u, hu, hu'⟩ := hs.workers w hw
      exact ⟨u, by rw [List.getElem?_append_left (List.getElem?_eq_some_iff.mp hu).1, hu], hu'⟩
    · exact hfresh w hw
  count := hs.count
  served hqueue := List.append_ne_nil_of_left_ne_nil (hs.served hqueue) fresh

/-- `submit` has started workers, and is over. -/
theorem Sound.enlist (hs : s.Sound) (h : s.threads[i]? = some t) (hcall : t.call = .wantsSubmit)
    (started : ℕ) : ({ s with
      threads := s.threads.set i { t with call := .none } ++
        List.replicate started { kind := .attached }
      workers := s.workers ++ List.range' s.threads.length started } : Executor).Sound := by
  have hset : (s.setThread i { t with call := .none }).Sound :=
    hs.set h (ExecutorThread.sound_none rfl) id (by simp [Shutting, hcall])
  refine hset.start _ _ (fun t ht => ?_) fun w hw => ?_
  · rw [List.eq_of_mem_replicate ht]
  · have hlength : (s.setThread i { t with call := .none }).threads.length = s.threads.length :=
      List.length_set
    rw [List.mem_range'_1] at hw
    refine ⟨{ kind := .attached }, ?_, by decide⟩
    rw [List.getElem?_append_right (by omega), List.getElem?_replicate_of_lt (by omega)]

/-- A thread that joins goes on to join. -/
theorem Sound.joining (hs : s.Sound) (h : s.threads[i]? = some t) {w : ℕ} {rest : List ℕ}
    (hcall : t.call = .joining (w :: rest)) :
    t.Busy ∧ s.stopping = true ∧ w ∈ s.workers ∧ rest ⊆ s.workers := by
  have hsound := hs.threads t (List.mem_of_getElem? h)
  simp only [ExecutorThread.Sound, hcall, List.cons_subset] at hsound
  exact hsound

/-- Every step keeps the threads and the mutex as they are to be. -/
theorem Sound.step (hs : s.Sound) {a : ExecutorLabel} (hstep : ExecutorStep s a s') :
    s'.Sound := by
  cases hstep with
  | spawn => simpa using hs.start [{ kind := .outside }] [] (by simp) (by simp)
  | callSubmit h hfree | callShutdown h hfree =>
    exact hs.set h hfree.2 id (by simp [Shutting, hfree.1])
  | @reject i t h hcall =>
    exact (hs.enlist h hcall 0).jobs (hs.enlist h hcall 0).served _ _ _
  | @startFails i t h hcall hfree hroom started =>
    exact (hs.enlist h hcall started).jobs (hs.enlist h hcall started).served _ _ _
  | @accept i t h hcall =>
    refine (hs.enlist h hcall _).jobs (fun _ hnone => ?_) _ _ _
    obtain ⟨hworkers, hfresh⟩ := List.append_eq_nil_iff.mp hnone
    have hcount := hs.count
    rw [hworkers, List.range'_eq_nil_iff, List.length_nil] at hfresh
    omega
  | @lockShutdown i t h hcall hfree =>
    have hsound := hs.threads t (List.mem_of_getElem? h)
    simp only [ExecutorThread.Sound, hcall] at hsound
    refine hs.hold h { t with call := .locked } hsound id (fun j hj => ?_)
      (iff_of_true trivial rfl) fun j u hne hu => ?_
    · obtain rfl := Option.some.inj hj
      exact (List.getElem?_eq_some_iff.mp h).1
    · rw [hs.holder j u hu, hfree]
      simp [Ne.symm hne]
  | @swap i t h hcall =>
    have hsound := hs.threads t (List.mem_of_getElem? h)
    simp only [ExecutorThread.Sound, hcall] at hsound
    have hset : (({ s with stopping := true } : Executor).setThread i
        { t with call := .cancelling s.queue }).Sound :=
      hs.stop.set h ⟨hsound, rfl⟩ id (by simp [Shutting, hcall])
    exact hset.jobs (absurd rfl) _ _ _
  | @cancel i n rest t h hcall =>
    have hsound := hs.threads t (List.mem_of_getElem? h)
    simp only [ExecutorThread.Sound, hcall] at hsound
    have hset : (s.setThread i { t with call := .cancelling rest }).Sound :=
      hs.set h hsound id (by simp [Shutting, hcall])
    exact hset.jobs hset.served _ _ _
  | @joinWorkers i t h hcall =>
    have hsound := hs.threads t (List.mem_of_getElem? h)
    simp only [ExecutorThread.Sound, hcall] at hsound
    exact hs.set h ⟨hsound.1, hsound.2, List.Subset.refl _⟩ id (by simp [Shutting, hcall])
  | @skip i w rest t u h hcall =>
    obtain ⟨hbusy, hstopping, -, hrest⟩ := hs.joining h hcall
    exact hs.set h ⟨hbusy, hstopping, hrest⟩ id (by simp [Shutting, hcall])
  | @detach i rest t h hcall =>
    obtain ⟨hbusy, hstopping, hi, hrest⟩ := hs.joining h hcall
    obtain ⟨u, hu, hkind⟩ := hs.workers i hi
    obtain rfl := Option.some.inj (h.symm.trans hu)
    refine hs.set h ⟨Or.inr ?_, hstopping, hrest⟩ (fun _ => by simp) (by simp [Shutting, hcall])
    exact hbusy.resolve_left hkind
  | @join i w rest t u h hcall hne hw hexited =>
    obtain ⟨hbusy, hstopping, -, hrest⟩ := hs.joining h hcall
    have hsound := hs.threads u (List.mem_of_getElem? hw)
    simp only [ExecutorThread.Sound, hexited] at hsound
    have hjoined : (s.setThread w { u with kind := .detached }).Sound := by
      refine hs.set hw ?_ (fun _ => by simp) Iff.rfl
      simp only [ExecutorThread.Sound, hexited]
      exact hsound
    have hthread : (s.setThread w { u with kind := .detached }).threads[i]? = some t := by
      rw [setThread, List.getElem?_set_ne hne]
      exact h
    exact hjoined.set hthread ⟨hbusy, hstopping, hrest⟩ id (by simp [Shutting, hcall])
  | @shutdownDone i t h hcall =>
    have hholder := (hs.holder i t h).mp (by simp [Shutting, hcall])
    refine hs.hold h { t with call := .none } (ExecutorThread.sound_none rfl) id (by simp)
      (by simp [Shutting]) fun j u hne hu => ?_
    rw [hs.holder j u hu, hholder]
    simp [Ne.symm hne]
  | @take i n rest t h hworker hcall hjob hqueue =>
    have hset : (s.setThread i { t with job := some (n, false) }).Sound :=
      hs.set h (ExecutorThread.sound_none hcall) id Iff.rfl
    exact hset.jobs (fun _ => hs.served (hqueue ▸ List.cons_ne_nil n rest)) _ _ _
  | acquire h hcall | release h hcall =>
    exact hs.set h (ExecutorThread.sound_none hcall) id Iff.rfl
  | @settle i n t h hcall =>
    have hset : (s.setThread i { t with job := none }).Sound :=
      hs.set h (ExecutorThread.sound_none hcall) id Iff.rfl
    exact hset.jobs hset.served _ _ _
  | exit h hworker hcall hjob hstopping =>
    exact hs.set h ⟨hjob, hstopping⟩ id (by simp [Shutting, hcall])

/-! ## Waiting and shutting down apart -/

/-- No job of an attached worker comes to wait while another thread is shutting the executor
down, or while such a job is about to, and no thread begins to while one waits. -/
def Apart (s : Executor) : ExecutorLabel → Prop
  | .callSubmit i => ∀ t, s.threads[i]? = some t → t.kind = .attached →
    ∀ u ∈ s.threads, ¬ Shutting u
  | .callShutdown i => ∀ t, s.threads[i]? = some t → t.kind = .attached →
    ∀ u ∈ s.threads, ¬ Shutting u ∧ ¬ u.Entering
  | .lockShutdown i => ∀ (w : ℕ) (u : ExecutorThread), w ≠ i → s.threads[w]? = some u →
    ¬ u.Waiting
  | .begins | .goesOn => True

/-- One of the threads may join the other, which waits. -/
def Blocks (t u : ExecutorThread) : Prop :=
  Shutting t ∧ u.Waiting ∨ t.Entering ∧ u.Entering

/-- No thread blocks another one. -/
def Clear (s : Executor) : Prop :=
  ∀ (i w : ℕ) (t u : ExecutorThread), w ≠ i → s.threads[i]? = some t →
    s.threads[w]? = some u → ¬ Blocks t u

theorem clear_started (workerCount queueCapacity : ℕ) :
    (started workerCount queueCapacity).Clear := by
  intro i w t u hne ht
  simp [started] at ht

/-- A thread in no call blocks no thread, and none blocks it. -/
theorem not_blocks_of_call (h : t.call = .none) (u : ExecutorThread) :
    ¬ Blocks t u ∧ ¬ Blocks u t := by
  simp [Blocks, Shutting, ExecutorThread.Waiting, ExecutorThread.Entering, h]

/-- One thread is changed, which blocks no other. -/
theorem Clear.change (hs : s.Clear) (hlength : i < s.threads.length)
    (h : ∀ (w : ℕ) (u : ExecutorThread), w ≠ i → s.threads[w]? = some u →
      ¬ Blocks t' u ∧ ¬ Blocks u t') : (s.setThread i t').Clear := by
  intro j w t u hne ht hu
  rw [setThread, List.getElem?_set] at ht hu
  split at ht
  · rename_i hij
    subst hij
    rw [if_neg (Ne.symm hne)] at hu
    cases ht
    exact (h w u hne hu).1
  · rename_i hij
    split at hu
    · rename_i hiw
      subst hiw
      cases hu
      exact (h j t (Ne.symm hij) ht).2
    · exact hs j w t u hne ht hu

/-- One thread is changed, and shuts down, waits and enters only if it did before. -/
theorem Clear.set (hs : s.Clear) (h : s.threads[i]? = some t)
    (hshutting : Shutting t' → Shutting t) (hwaiting : t'.Waiting → t.Waiting)
    (hentering : t'.Entering → t.Entering) : (s.setThread i t').Clear := by
  refine hs.change (List.getElem?_eq_some_iff.mp h).1 fun w u hne hu => ⟨?_, ?_⟩
  · rintro (⟨hs', hw⟩ | ⟨he, he'⟩)
    · exact hs i w t u hne h hu (Or.inl ⟨hshutting hs', hw⟩)
    · exact hs i w t u hne h hu (Or.inr ⟨hentering he, he'⟩)
  · rintro (⟨hs', hw⟩ | ⟨he, he'⟩)
    · exact hs w i u t (Ne.symm hne) hu h (Or.inl ⟨hs', hwaiting hw⟩)
    · exact hs w i u t (Ne.symm hne) hu h (Or.inr ⟨he, hentering he'⟩)

/-- A thread that is then in no call. -/
theorem Clear.rest (hs : s.Clear) (h : s.threads[i]? = some t) (hcall : t'.call = .none) :
    (s.setThread i t').Clear :=
  hs.change (List.getElem?_eq_some_iff.mp h).1 fun _ u _ _ => not_blocks_of_call hcall u

/-- A thread that shuts the executor down goes on. -/
theorem Clear.shutting (hs : s.Clear) (h : s.threads[i]? = some t) (ht : Shutting t)
    (ht' : ¬ t'.Waiting) : (s.setThread i t').Clear :=
  hs.set h (fun _ => ht) (fun hwaiting => absurd hwaiting ht')
    fun hentering => absurd hentering.waiting ht'

/-- Threads in no call are started. -/
theorem Clear.start (hs : s.Clear) (more : List ExecutorThread)
    (hmore : ∀ t ∈ more, t.call = .none) (workers : List ℕ) :
    ({ s with threads := s.threads ++ more, workers } : Executor).Clear := by
  intro i w t u hne ht hu
  rcases Nat.lt_or_ge i s.threads.length with hi | hi
  · rw [List.getElem?_append_left hi] at ht
    rcases Nat.lt_or_ge w s.threads.length with hw | hw
    · rw [List.getElem?_append_left hw] at hu
      exact hs i w t u hne ht hu
    · rw [List.getElem?_append_right hw] at hu
      exact (not_blocks_of_call (hmore u (List.mem_of_getElem? hu)) t).2
  · rw [List.getElem?_append_right hi] at ht
    exact (not_blocks_of_call (hmore t (List.mem_of_getElem? ht)) u).1

/-- `submit` has started workers, and is over. -/
theorem Clear.enlist (hs : s.Clear) (h : s.threads[i]? = some t) (started : ℕ)
    (hthreads : s'.threads = s.threads.set i { t with call := .none } ++
      List.replicate started { kind := .attached }) : s'.Clear := by
  have hrest : (s.setThread i { t with call := .none }).Clear := hs.rest h rfl
  have hstart := hrest.start (List.replicate started { kind := .attached })
    (fun t ht => by rw [List.eq_of_mem_replicate ht]) s.workers
  unfold Clear at hstart ⊢
  rw [hthreads]
  exact hstart

/-- A step that meets the condition brings no thread to block another. -/
theorem Clear.step (hs : s.Clear) {a : ExecutorLabel}
    (hstep : Meeting Apart ExecutorStep s a s') : s'.Clear := by
  obtain ⟨hapart, hstep⟩ := hstep
  cases hstep with
  | spawn => exact hs.start _ (by simp) s.workers
  | @callSubmit i t h hfree =>
    by_cases hkind : t.kind = .attached
    · refine hs.change (List.getElem?_eq_some_iff.mp h).1 fun w u _ hu => ?_
      have hnone := hapart t h hkind u (List.mem_of_getElem? hu)
      have hnew : ¬ Shutting { t with call := .wantsSubmit } := id
      simp [Blocks, hnone, hnew, ExecutorThread.Entering]
    · refine hs.set h False.elim (fun hwaiting => absurd hwaiting.1 hkind) fun hentering => ?_
      exact absurd hentering.1 hkind
  | @callShutdown i t h hfree =>
    by_cases hkind : t.kind = .attached
    · refine hs.change (List.getElem?_eq_some_iff.mp h).1 fun w u _ hu => ?_
      obtain ⟨hnone, hnot⟩ := hapart t h hkind u (List.mem_of_getElem? hu)
      have hnew : ¬ Shutting { t with call := .wantsShutdown } := id
      simp [Blocks, hnone, hnot, hnew]
    · refine hs.set h False.elim (fun hwaiting => absurd hwaiting.1 hkind) fun hentering => ?_
      exact absurd hentering.1 hkind
  | reject h | startFails h | accept h => exact hs.enlist h _ rfl
  | @lockShutdown i t h hcall =>
    refine hs.change (List.getElem?_eq_some_iff.mp h).1 fun w u hne hu => ?_
    constructor
    · rintro (⟨-, hwaiting⟩ | ⟨hentering, -⟩)
      · exact hapart w u hne hu hwaiting
      · exact absurd hentering.2 (by simp)
    · rintro (⟨-, hwaiting⟩ | ⟨-, hentering⟩)
      · exact absurd hwaiting.2 (by simp)
      · exact absurd hentering.2 (by simp)
  | swap h hcall | cancel h hcall | joinWorkers h hcall | skip h hcall | detach h hcall =>
    exact hs.shutting h (by simp [Shutting, hcall]) (by simp [ExecutorThread.Waiting])
  | @join i w rest t u h hcall hne hw hexited =>
    have hjoined : (s.setThread w { u with kind := .detached }).Clear :=
      hs.set hw id (fun hwaiting => ThreadKind.noConfusion hwaiting.1) fun hentering =>
        ThreadKind.noConfusion hentering.1
    have hthread : (s.setThread w { u with kind := .detached }).threads[i]? = some t := by
      rw [setThread, List.getElem?_set_ne hne]
      exact h
    exact hjoined.shutting hthread (by simp [Shutting, hcall]) (by simp [ExecutorThread.Waiting])
  | shutdownDone h => exact hs.rest h rfl
  | take h hworker hcall | acquire h hcall | release h hcall | settle h hcall =>
    exact hs.rest h hcall
  | exit h hworker hcall =>
    exact hs.set h False.elim (by simp [ExecutorThread.Waiting])
      (by simp [ExecutorThread.Entering])

/-! ## The work that is left -/

/-- The most workers there can be. -/
def capacity (s : Executor) : ℕ :=
  max s.workerCount s.workers.length

/-- What is left of a call, where there are at most `capacity` workers to join. -/
def callWork (capacity : ℕ) : ExecutorCall → ℕ
  | .none => 1
  | .wantsSubmit => 4
  | .wantsShutdown => capacity + 5
  | .locked => capacity + 4
  | .cancelling jobs => capacity + 3 + 2 * jobs.length
  | .joining workers => 2 + workers.length
  | .exited => 0

/-- What is left of a job. -/
def jobWork : Option (ℕ × Bool) → ℕ
  | none => 0
  | some (_, leased) => 1 + leased.toNat

/-- What is left for a thread to do. -/
def threadWork (capacity : ℕ) (t : ExecutorThread) : ℕ :=
  callWork capacity t.call + jobWork t.job

/-- What the calls and jobs that have begun have yet to do. -/
def work (s : Executor) : ℕ :=
  (s.threads.map (threadWork s.capacity)).sum + 2 * s.queue.length +
    (s.workerCount - s.workers.length)

/-- A call or a job that has begun goes on, and keeps the threads apart. -/
def GoesOn (s : Executor) (a : ExecutorLabel) : Prop :=
  s.Apart a ∧ (a = .goesOn ∨ ∃ i, a = .lockShutdown i)

/-- One thread is changed, and has less to do. -/
theorem work_lt_of_set (h : s.threads[i]? = some t) (hthreads : s'.threads = s.threads.set i t')
    (hworkers : s'.workers = s.workers) (hcount : s'.workerCount = s.workerCount)
    (hlt : threadWork s.capacity t' + 2 * s'.queue.length <
      threadWork s.capacity t + 2 * s.queue.length) : s'.work < s.work := by
  have hcapacity : s'.capacity = s.capacity := by rw [capacity, capacity, hworkers, hcount]
  have hsum := sum_map_set h (threadWork s.capacity) t'
  rw [work, work, hcapacity, hthreads, hworkers, hcount]
  omega

/-- `submit` is over, and has started some of the workers that are missing. -/
theorem work_lt_of_start (h : s.threads[i]? = some t) (hcall : t.call = .wantsSubmit)
    {started : ℕ} (hstarted : started ≤ s.workerCount - s.workers.length)
    (hthreads : s'.threads = s.threads.set i { t with call := .none } ++
      List.replicate started { kind := .attached })
    (hworkers : s'.workers = s.workers ++ List.range' s.threads.length started)
    (hcount : s'.workerCount = s.workerCount) (hqueue : s'.queue.length ≤ s.queue.length + 1) :
    s'.work < s.work := by
  have hlength : s'.workers.length = s.workers.length + started := by simp [hworkers]
  have hcapacity : s'.capacity = s.capacity := by
    rw [capacity, capacity, hlength, hcount]
    omega
  have hsum := sum_map_set h (threadWork s.capacity) { t with call := .none }
  have hfresh : threadWork s.capacity { kind := .attached } = 1 := rfl
  simp only [threadWork, hcall, callWork] at hsum
  rw [work, work, hcapacity, hthreads, hlength, hcount, List.map_append, List.sum_append,
    List.map_replicate, List.sum_replicate_nat, hfresh]
  omega

/-- A step by which a call or a job goes on leaves less work. -/
theorem work_lt {a : ExecutorLabel} (hstep : ExecutorStep s a s') (ha : s.GoesOn a) :
    s'.work < s.work := by
  cases hstep with
  | spawn | callSubmit | callShutdown | acquire => simp [GoesOn] at ha
  | reject h hcall => exact work_lt_of_start h hcall (Nat.zero_le _) rfl rfl rfl (Nat.le_succ _)
  | startFails h hcall hfree hroom hstarted =>
    exact work_lt_of_start h hcall hstarted.le rfl rfl rfl (Nat.le_succ _)
  | accept h hcall =>
    exact work_lt_of_start h hcall le_rfl rfl rfl rfl (by simp [Executor.accept])
  | lockShutdown h hcall | cancel h hcall | skip h hcall | detach h hcall
  | shutdownDone h hcall =>
    exact work_lt_of_set h rfl rfl rfl (by simp [threadWork, callWork, hcall, setThread])
  | swap h hcall =>
    refine work_lt_of_set h rfl rfl rfl ?_
    simp only [threadWork, callWork, hcall, List.length_nil]
    omega
  | joinWorkers h hcall =>
    refine work_lt_of_set h rfl rfl rfl ?_
    have hle : s.workers.length ≤ s.capacity := le_max_right _ _
    simp only [threadWork, callWork, hcall, setThread, List.length_nil]
    omega
  | @join i w rest t u h hcall hne hw hexited =>
    have hthread : (s.setThread w { u with kind := .detached }).threads[i]? = some t := by
      rw [setThread, List.getElem?_set_ne hne]
      exact h
    have hsum := sum_map_set hw (threadWork s.capacity) { u with kind := .detached }
    have hlt : ((s.setThread w { u with kind := .detached }).setThread i
        { t with call := .joining rest }).work <
        (s.setThread w { u with kind := .detached }).work :=
      work_lt_of_set hthread rfl rfl rfl (by simp [threadWork, callWork, hcall, setThread])
    have hsame : (s.setThread w { u with kind := .detached }).work = s.work := by
      have hkind : threadWork s.capacity { u with kind := .detached } =
        threadWork s.capacity u := rfl
      rw [hkind, Nat.add_left_cancel_iff] at hsum
      simp only [work, setThread, capacity] at hsum ⊢
      rw [hsum]
    exact hsame ▸ hlt
  | take h hworker hcall hjob hqueue =>
    refine work_lt_of_set h rfl rfl rfl ?_
    simp only [threadWork, callWork, jobWork, hcall, hjob, hqueue, List.length_cons,
      Bool.toNat_false]
    omega
  | release h hcall hjob | settle h hcall hjob | exit h hworker hcall hjob =>
    exact work_lt_of_set h rfl rfl rfl (by simp [threadWork, callWork, jobWork, hcall, hjob,
      setThread])

/-! ## A step to take -/

/-- The futures of all jobs that were submitted are satisfied, and once each. -/
def AllSettled (s : Executor) : Prop :=
  (s.settled.map Prod.fst).Perm (List.range s.submitted)

/-- A call or a job can go on. -/
def CanGoOn (s : Executor) : Prop :=
  ∃ a s', Meeting GoesOn ExecutorStep s a s'

theorem canGoOn (h : ExecutorStep s .goesOn s') : s.CanGoOn :=
  ⟨.goesOn, s', ⟨trivial, Or.inl rfl⟩, h⟩

/-- A job that is in no call ends. -/
theorem canGoOn_of_job (h : s.threads[i]? = some t) (hcall : t.call = .none)
    (hjob : t.job ≠ none) : s.CanGoOn := by
  obtain ⟨⟨n, leased⟩, hjob⟩ := Option.ne_none_iff_exists'.mp hjob
  cases leased with
  | false => exact canGoOn (.settle h hcall hjob)
  | true => exact canGoOn (.release h hcall hjob)

/-- A worker that is to be joined is no hindrance : it is not joinable, it ends its job or its
loop, or it has. -/
theorem canGoOn_of_joining (hinv : s.Inv) (hs : s.Sound) (hclear : s.Clear)
    (h : s.threads[i]? = some t) {w : ℕ} {rest : List ℕ} (hcall : t.call = .joining (w :: rest)) :
    s.CanGoOn := by
  have hshutting : Shutting t := by simp [Shutting, hcall]
  obtain ⟨-, hstopping, hw, -⟩ := hs.joining h hcall
  obtain ⟨u, hu, hkind⟩ := hs.workers w hw
  by_cases hwi : w = i
  · subst hwi
    exact canGoOn (.detach h hcall)
  by_cases hattached : u.kind = .attached
  · have hwaiting := fun hwaiting => hclear i w t u hwi h hu (Or.inl ⟨hshutting, hwaiting⟩)
    have hother : ¬ Shutting u := by
      intro hother
      have hsame := ((hs.holder w u hu).mp hother).symm.trans ((hs.holder i t h).mp hshutting)
      exact hwi (Option.some.inj hsame)
    cases hu' : u.call with
    | none =>
      by_cases hjob : u.job = none
      · exact canGoOn (.exit hu hkind hu' hjob hstopping (hinv.empty hstopping))
      · exact canGoOn_of_job hu hu' hjob
    | wantsSubmit => exact (hwaiting ⟨hattached, Or.inl hu'⟩).elim
    | wantsShutdown => exact (hwaiting ⟨hattached, Or.inr hu'⟩).elim
    | locked | cancelling jobs | joining workers => exact absurd (by simp [Shutting, hu']) hother
    | exited => exact canGoOn (.join h hcall hwi hu hu')
  · exact canGoOn (.skip h hcall hu hattached)

/-- A thread that has the mutex in `shutdown` goes on. -/
theorem canGoOn_of_shutting (hinv : s.Inv) (hs : s.Sound) (hclear : s.Clear)
    (h : s.threads[i]? = some t) (hshutting : Shutting t) : s.CanGoOn := by
  cases hcall : t.call with
  | none | wantsSubmit | wantsShutdown | exited => simp [Shutting, hcall] at hshutting
  | locked => exact canGoOn (.swap h hcall)
  | cancelling jobs =>
    cases jobs with
    | nil => exact canGoOn (.joinWorkers h hcall)
    | cons n rest => exact canGoOn (.cancel h hcall)
  | joining workers =>
    cases workers with
    | nil => exact canGoOn (.shutdownDone h hcall)
    | cons w rest => exact canGoOn_of_joining hinv hs hclear h hcall

/-- One of the threads that wait for the free mutex can take it : a `submit` before every
`shutdown`, and a job before the other threads. -/
theorem canGoOn_of_waiting (hclear : s.Clear) (hfree : s.lifecycleHolder = none)
    (h : s.threads[i]? = some t) (hcall : t.call = .wantsSubmit ∨ t.call = .wantsShutdown) :
    s.CanGoOn := by
  by_cases hsubmit : ∃ (j : ℕ) (u : ExecutorThread),
    s.threads[j]? = some u ∧ u.call = .wantsSubmit
  · obtain ⟨j, u, hu, hu'⟩ := hsubmit
    by_cases hrejects : s.Rejects
    · exact canGoOn (.reject hu hu' hfree hrejects)
    · exact canGoOn (.accept hu hu' hfree hrejects)
  have hnone : ∀ (w : ℕ) (v : ExecutorThread), s.threads[w]? = some v → v.Waiting →
      v.Entering := fun w v hv hwaiting =>
    ⟨hwaiting.1, hwaiting.2.resolve_left fun hcall => hsubmit ⟨w, v, hv, hcall⟩⟩
  have hlock : ∀ (j : ℕ) (u : ExecutorThread), s.threads[j]? = some u →
      u.call = .wantsShutdown → s.Apart (.lockShutdown j) → s.CanGoOn := fun j u hu hu' hapart =>
    ⟨_, _, ⟨hapart, Or.inr ⟨j, rfl⟩⟩, .lockShutdown hu hu' hfree⟩
  by_cases hentering : ∃ (j : ℕ) (u : ExecutorThread), s.threads[j]? = some u ∧ u.Entering
  · obtain ⟨j, u, hu, hu'⟩ := hentering
    refine hlock j u hu hu'.2 fun w v hne hv hwaiting => ?_
    exact hclear j w u v hne hu hv (Or.inr ⟨hu', hnone w v hv hwaiting⟩)
  · have hshutdown : t.call = .wantsShutdown :=
      hcall.resolve_left fun hcall => hsubmit ⟨i, t, h, hcall⟩
    refine hlock i t h hshutdown fun w v hne hv hwaiting => ?_
    exact hentering ⟨w, v, hv, hnone w v hv hwaiting⟩

/-- A thread that is in no call, or has exited, has only the job that it runs in its hands. -/
theorem inHand_eq_nil (ht : t.Sound s.stopping s.workers)
    (hcall : t.call = .none ∨ t.call = .exited) (hjob : t.call = .none → t.job = none) :
    inHand t = [] := by
  rcases hcall with hcall | hcall
  · simp [inHand, running, toCancel, hcall, hjob hcall]
  · simp only [ExecutorThread.Sound, hcall] at ht
    simp [inHand, running, toCancel, hcall, ht.1]

/-- While a future is not satisfied, a call or a job can go on. -/
theorem allSettled_or_canGoOn (hinv : s.Inv) (hs : s.Sound) (hclear : s.Clear) :
    s.AllSettled ∨ s.CanGoOn := by
  by_cases hshutting : ∃ (i : ℕ) (t : ExecutorThread), s.threads[i]? = some t ∧ Shutting t
  · obtain ⟨i, t, h, ht⟩ := hshutting
    exact Or.inr (canGoOn_of_shutting hinv hs hclear h ht)
  have hfree : s.lifecycleHolder = none := by
    by_contra hheld
    obtain ⟨i, hi⟩ := Option.ne_none_iff_exists'.mp hheld
    have hthread := List.getElem?_eq_getElem (hs.held i hi)
    exact hshutting ⟨i, _, hthread, (hs.holder i _ hthread).mpr hi⟩
  by_cases hwaiting : ∃ (i : ℕ) (t : ExecutorThread), s.threads[i]? = some t ∧
    (t.call = .wantsSubmit ∨ t.call = .wantsShutdown)
  · obtain ⟨i, t, h, ht⟩ := hwaiting
    exact Or.inr (canGoOn_of_waiting hclear hfree h ht)
  have hrest : ∀ (i : ℕ) (t : ExecutorThread), s.threads[i]? = some t →
      t.call = .none ∨ t.call = .exited := by
    intro i t h
    have hnot : ¬ Shutting t := fun ht => hshutting ⟨i, t, h, ht⟩
    cases hcall : t.call with
    | none => exact Or.inl rfl
    | exited => exact Or.inr rfl
    | wantsSubmit => exact absurd ⟨i, t, h, Or.inl hcall⟩ hwaiting
    | wantsShutdown => exact absurd ⟨i, t, h, Or.inr hcall⟩ hwaiting
    | locked | cancelling jobs | joining workers => exact absurd (by simp [Shutting, hcall]) hnot
  by_cases hrunning : ∃ (i : ℕ) (t : ExecutorThread), s.threads[i]? = some t ∧ t.call = .none ∧
    t.job ≠ none
  · obtain ⟨i, t, h, hcall, hjob⟩ := hrunning
    exact Or.inr (canGoOn_of_job h hcall hjob)
  have hjob : ∀ (i : ℕ) (t : ExecutorThread), s.threads[i]? = some t → t.call = .none →
      t.job = none := fun i t h hcall =>
    not_not.mp fun hsome => hrunning ⟨i, t, h, hcall, hsome⟩
  by_cases hqueue : s.queue = []
  · left
    have hhands : s.threads.flatMap inHand = [] := by
      refine List.flatMap_eq_nil_iff.mpr fun t ht => ?_
      obtain ⟨i, h⟩ := List.getElem?_of_mem ht
      exact inHand_eq_nil (hs.threads t ht) (hrest i t h) (hjob i t h)
    have hplaces := hinv.places
    rw [hqueue, hhands] at hplaces
    exact hplaces
  · right
    obtain ⟨n, rest, hn⟩ := List.exists_cons_of_ne_nil hqueue
    obtain ⟨w, hw⟩ := List.exists_mem_of_ne_nil _ (hs.served hqueue)
    obtain ⟨u, hu, hkind⟩ := hs.workers w hw
    rcases hrest w u hu with hcall | hcall
    · exact canGoOn (.take hu hkind hcall (hjob w u hu hcall) hn)
    · have hsound := hs.threads u (List.mem_of_getElem? hu)
      simp only [ExecutorThread.Sound, hcall] at hsound
      exact absurd (hinv.empty hsound.2) hqueue

/-! ## The futures -/

/-- What is promised of the futures in a state. -/
structure Completes (s : Executor) : Prop where
  /-- What has begun comes to an end, and not before all futures are satisfied. -/
  ends : ∀ (as : List ExecutorLabel) (s' : Executor), Run (Meeting GoesOn ExecutorStep) s as s' →
    as.length ≤ s.work ∧ (s'.AllSettled ∨ s'.CanGoOn)
  satisfied : ∃ (as : List ExecutorLabel) (s' : Executor),
    Run (Meeting GoesOn ExecutorStep) s as s' ∧ s'.AllSettled

/-- What a step keeps of a state, if it meets the condition. -/
structure Open (s : Executor) : Prop where
  inv : s.Inv
  sound : s.Sound
  clear : s.Clear

theorem Open.step (hs : s.Open) {a : ExecutorLabel}
    (hstep : Meeting Apart ExecutorStep s a s') : s'.Open :=
  ⟨hs.inv.step hstep.2, hs.sound.step hstep.2, hs.clear.step hstep⟩

/-- Every step that goes on leaves less to do. -/
theorem Open.goesOn (hs : s.Open) {a : ExecutorLabel}
    (hstep : Meeting GoesOn ExecutorStep s a s') : s'.Open ∧ s'.work < s.work :=
  ⟨hs.step ⟨hstep.1.1, hstep.2⟩, work_lt hstep.2 hstep.1⟩

/-- From an open state every call and every job comes to its end. -/
theorem Open.completes (hs : s.Open) : s.Completes where
  ends as s' hrun := by
    have hs' : s'.Open := hrun.invariant (fun hs hstep => (hs.goesOn hstep).1) hs
    refine ⟨?_, allSettled_or_canGoOn hs'.inv hs'.sound hs'.clear⟩
    exact Nat.le_of_add_right_le
      (hrun.length_add_le (P := Open) (μ := work) (fun hs hstep => hs.goesOn hstep) hs)
  satisfied := by
    refine Run.reach (P := Open) (μ := work) (fun hs => ?_) hs
    refine (allSettled_or_canGoOn hs.inv hs.sound hs.clear).imp id ?_
    rintro ⟨a, s', hstep⟩
    exact ⟨a, s', hstep, hs.goesOn hstep⟩

/-- In every order of the steps every job is delivered once at most, and in those that keep
waiting and shutting down apart its future is satisfied at last. -/
theorem delivers {workerCount queueCapacity : ℕ} {as : List ExecutorLabel}
    (h : Run ExecutorStep (started workerCount queueCapacity) as s) :
    s.Delivers ∧ (Run (Meeting Apart ExecutorStep) (started workerCount queueCapacity) as s →
      s.Completes) := by
  refine ⟨.of_run h, fun hmeeting => Open.completes ?_⟩
  have hstarted : (started workerCount queueCapacity).Open :=
    ⟨inv_started _ _, sound_started _ _, clear_started _ _⟩
  exact hmeeting.invariant (fun hs => hs.step) hstarted

/-- A worker runs job 0 and job 1 is queued, when a thread shuts the executor down that has
submitted both and a third one. -/
def threeSubmitted : Executor where
  workerCount := 1
  queueCapacity := 1
  threads := [{ kind := .outside, call := .wantsShutdown },
    { kind := .attached, job := some (0, true) }]
  workers := [1]
  queue := [1]
  submitted := 3
  taken := [0]
  settled := [(2, .rejected)]

section Steps

variable {u : Executor} {as : List ExecutorLabel}

theorem run_begins (h : ExecutorStep s .begins s')
    (hrun : Run (Meeting Apart ExecutorStep) s' as u) :
    Run (Meeting Apart ExecutorStep) s (.begins :: as) u :=
  .cons ⟨trivial, h⟩ hrun

theorem run_goesOn (h : ExecutorStep s .goesOn s')
    (hrun : Run (Meeting Apart ExecutorStep) s' as u) :
    Run (Meeting Apart ExecutorStep) s (.goesOn :: as) u :=
  .cons ⟨trivial, h⟩ hrun

/-- An outside thread may call at any time. -/
theorem run_call (i : ℕ) {call : ExecutorCall} {a : ExecutorLabel}
    (ha : a = .callSubmit i ∧ call = .wantsSubmit ∨ a = .callShutdown i ∧ call = .wantsShutdown)
    (h : s.threads[i]? = some { kind := .outside })
    (hrun : Run (Meeting Apart ExecutorStep) (s.setThread i { kind := .outside, call }) as u) :
    Run (Meeting Apart ExecutorStep) s (a :: as) u := by
  have hfree : ({ kind := .outside } : ExecutorThread).Free := ⟨rfl, Or.inl rfl⟩
  rcases ha with ⟨rfl, rfl⟩ | ⟨rfl, rfl⟩
  · refine .cons ⟨fun t ht hkind => ?_, .callSubmit h hfree⟩ hrun
    cases h.symm.trans ht
    contradiction
  · refine .cons ⟨fun t ht hkind => ?_, .callShutdown h hfree⟩ hrun
    cases h.symm.trans ht
    contradiction

end Steps

theorem run_threeSubmitted : ∃ as,
    Run (Meeting Apart ExecutorStep) (started 1 1) as threeSubmitted :=
  ⟨_, run_begins (.spawn _) <|
    run_call 0 (Or.inl ⟨rfl, rfl⟩) rfl <|
    run_goesOn (@ExecutorStep.accept _ 0 { kind := .outside, call := .wantsSubmit } rfl rfl rfl
      (by unfold Rejects; decide)) <|
    run_goesOn (@ExecutorStep.take _ 1 0 [] { kind := .attached } rfl (by decide) rfl rfl rfl) <|
    run_begins (@ExecutorStep.acquire _ 1 0 { kind := .attached, job := some (0, false) } rfl
      rfl rfl) <|
    run_call 0 (Or.inl ⟨rfl, rfl⟩) rfl <|
    run_goesOn (@ExecutorStep.accept _ 0 { kind := .outside, call := .wantsSubmit } rfl rfl rfl
      (by unfold Rejects; decide)) <|
    run_call 0 (Or.inl ⟨rfl, rfl⟩) rfl <|
    run_goesOn (@ExecutorStep.reject _ 0 { kind := .outside, call := .wantsSubmit } rfl rfl rfl
      (by unfold Rejects; decide)) <|
    run_call 0 (Or.inr ⟨rfl, rfl⟩) rfl .nil⟩

/-- Three jobs, one of them rejected, and a shutdown. -/
theorem delivers_three : threeSubmitted.Delivers ∧ threeSubmitted.Completes := by
  obtain ⟨as, hrun⟩ := run_threeSubmitted
  obtain ⟨hdelivers, hcompletes⟩ := delivers hrun.of_meeting
  exact ⟨hdelivers, hcompletes hrun⟩

/-! ## A future that is never satisfied -/

/-- A thread is joining a worker whose job waits for the mutex that the thread has. -/
structure Joined (n : ℕ) (s : Executor) : Prop where
  holder : s.lifecycleHolder = some 0
  joiner : s.threads[0]? = some { kind := .outside, call := .joining [1] }
  worker : s.threads[1]? =
    some { kind := .attached, job := some (n, false), call := .wantsShutdown }
  alone : ∀ (i : ℕ) (t : ExecutorThread), s.threads[i]? = some t → Shutting t → i = 0
  only : ∀ (i : ℕ) (t : ExecutorThread), s.threads[i]? = some t →
    ∀ leased, t.job = some (n, leased) → i = 1
  notQueued : n ∉ s.queue
  unsettled : ∀ o, (n, o) ∉ s.settled

variable {n : ℕ}

/-- A thread in no call is neither of the two. -/
theorem Joined.ne (hs : s.Joined n) (h : s.threads[i]? = some t) (hcall : t.call = .none) :
    i ≠ 0 ∧ i ≠ 1 := by
  constructor
  · rintro rfl
    rw [hs.joiner] at h
    cases h
    contradiction
  · rintro rfl
    rw [hs.worker] at h
    cases h
    contradiction

/-- What another thread does changes nothing for the two. -/
theorem Joined.set (hs : s.Joined n) (h : s.threads[i]? = some t) (hcall : t.call = .none)
    (hshutting : ¬ Shutting t') (hjob : ∀ leased, t'.job ≠ some (n, leased)) :
    (s.setThread i t').Joined n := by
  obtain ⟨hzero, hone⟩ := hs.ne h hcall
  refine ⟨hs.holder, ?_, ?_, fun j u hu hu' => ?_, fun j u hu leased hu' => ?_, hs.notQueued,
    hs.unsettled⟩
  · rw [setThread, List.getElem?_set_ne hzero]
    exact hs.joiner
  · rw [setThread, List.getElem?_set_ne hone]
    exact hs.worker
  · rw [setThread, List.getElem?_set] at hu
    split at hu
    · split at hu
      · cases hu
        exact absurd hu' hshutting
      · contradiction
    · exact hs.alone j u hu hu'
  · rw [setThread, List.getElem?_set] at hu
    split at hu
    · split at hu
      · cases hu
        exact absurd hu' (hjob leased)
      · contradiction
    · exact hs.only j u hu leased hu'

/-- The job of a thread in no call is another one. -/
theorem Joined.job_ne (hs : s.Joined n) (h : s.threads[i]? = some t) (hcall : t.call = .none)
    (leased : Bool) : t.job ≠ some (n, leased) :=
  fun hjob => (hs.ne h hcall).2 (hs.only i t h leased hjob)

/-- The joiner waits for the worker. -/
theorem Joined.call_eq (hs : s.Joined n) (h : s.threads[i]? = some t) (hshutting : Shutting t) :
    i = 0 ∧ t.call = .joining [1] := by
  obtain rfl := hs.alone i t h hshutting
  rw [hs.joiner] at h
  cases h
  exact ⟨rfl, rfl⟩

/-- No step sets a joined job free. -/
theorem Joined.step (hs : s.Joined n) {a : ExecutorLabel} (hstep : ExecutorStep s a s') :
    s'.Joined n := by
  have hheld : s.lifecycleHolder ≠ none := by
    rw [hs.holder]
    exact Option.some_ne_none 0
  cases hstep with
  | spawn =>
    have hold : ∀ (j : ℕ) (u v : ExecutorThread), s.threads[j]? = some u →
        (s.threads ++ [v])[j]? = some u := by
      intro j u v hu
      rw [List.getElem?_append_left (List.getElem?_eq_some_iff.mp hu).1]
      exact hu
    have hnew : ∀ (j : ℕ) (u : ExecutorThread),
        (s.threads ++ [({ kind := .outside } : ExecutorThread)])[j]? = some u →
        s.threads[j]? = some u ∨ u = { kind := .outside } := by
      intro j u hu
      rcases Nat.lt_or_ge j s.threads.length with hj | hj
      · rw [List.getElem?_append_left hj] at hu
        exact Or.inl hu
      · rw [List.getElem?_append_right hj, List.getElem?_singleton] at hu
        split at hu
        · exact Or.inr (Option.some.inj hu).symm
        · contradiction
    refine ⟨hs.holder, hold _ _ _ hs.joiner, hold _ _ _ hs.worker, fun j u hu hu' => ?_,
      fun j u hu leased hu' => ?_, hs.notQueued, hs.unsettled⟩
    · rcases hnew j u hu with hu | rfl
      · exact hs.alone j u hu hu'
      · exact hu'.elim
    · rcases hnew j u hu with hu | rfl
      · exact hs.only j u hu leased hu'
      · contradiction
  | callSubmit h hfree | callShutdown h hfree =>
    exact hs.set h hfree.1 id fun leased hsome => hs.job_ne h hfree.1 leased hsome
  | reject h hcall hfree | startFails h hcall hfree | accept h hcall hfree
  | lockShutdown h hcall hfree => exact absurd hfree hheld
  | swap h hcall | cancel h hcall | joinWorkers h hcall | shutdownDone h hcall =>
    have hjoining := (hs.call_eq h (by simp [Shutting, hcall])).2
    rw [hcall] at hjoining
    simp at hjoining
  | @skip i w rest t u h hcall hw hdetached =>
    have hjoining := (hs.call_eq h (by simp [Shutting, hcall])).2
    rw [hcall] at hjoining
    obtain ⟨rfl, rfl⟩ := List.cons.inj (ExecutorCall.joining.inj hjoining)
    rw [hs.worker] at hw
    cases hw
    exact absurd rfl hdetached
  | @detach i rest t h hcall =>
    obtain ⟨rfl, hjoining⟩ := hs.call_eq h (by simp [Shutting, hcall])
    rw [hcall] at hjoining
    simp at hjoining
  | @join i w rest t u h hcall hne hw hexited =>
    have hjoining := (hs.call_eq h (by simp [Shutting, hcall])).2
    rw [hcall] at hjoining
    obtain ⟨rfl, rfl⟩ := List.cons.inj (ExecutorCall.joining.inj hjoining)
    rw [hs.worker] at hw
    cases hw
    contradiction
  | @take i m rest t h hworker hcall hjob hqueue =>
    have hne : m ≠ n := by
      rintro rfl
      exact hs.notQueued (hqueue ▸ List.mem_cons_self)
    have hset : (s.setThread i { t with job := some (m, false) }).Joined n := by
      refine hs.set h hcall (by simp [Shutting, hcall]) fun leased hsome => hne ?_
      exact (Prod.mk.inj (Option.some.inj hsome)).1
    refine ⟨hset.holder, hset.joiner, hset.worker, hset.alone, hset.only, fun hmem => ?_,
      hset.unsettled⟩
    exact hs.notQueued (hqueue ▸ List.mem_cons_of_mem m hmem)
  | @acquire i m t h hcall hjob =>
    refine hs.set h hcall (by simp [Shutting, hcall]) fun leased hsome => ?_
    refine hs.job_ne h hcall false (hjob.trans ?_)
    rw [(Prod.mk.inj (Option.some.inj hsome)).1]
  | @release i m t h hcall hjob =>
    refine hs.set h hcall (by simp [Shutting, hcall]) fun leased hsome => ?_
    refine hs.job_ne h hcall true (hjob.trans ?_)
    rw [(Prod.mk.inj (Option.some.inj hsome)).1]
  | @settle i m t h hcall hjob =>
    have hset : (s.setThread i { t with job := none }).Joined n :=
      hs.set h hcall (by simp [Shutting, hcall]) fun leased hsome =>
        Option.some_ne_none _ hsome.symm
    refine ⟨hset.holder, hset.joiner, hset.worker, hset.alone, hset.only, hset.notQueued,
      fun o hmem => ?_⟩
    rcases List.mem_append.mp hmem with hmem | hmem
    · exact hs.unsettled o hmem
    · rw [List.mem_singleton, Prod.mk.injEq] at hmem
      refine hs.job_ne h hcall false (hjob.trans ?_)
      rw [hmem.1]
  | exit h hworker hcall hjob hstopping hempty =>
    exact hs.set h hcall id fun leased hsome => hs.job_ne h hcall leased hsome

/-- Whatever happens next, the future of that job stays unsatisfied. -/
theorem not_settled_of_joined (hs : s.Joined n) {as : List ExecutorLabel}
    (h : Run ExecutorStep s as s') (o : JobOutcome) : (n, o) ∉ s'.settled :=
  (h.invariant (fun hs => hs.step) hs).unsettled o

/-- A worker runs a job and stands in `call`, and another thread in `joiner`. -/
def jobRunning (call joiner : ExecutorCall) (stopping : Bool) (holder : Option ℕ) :
    Executor where
  workerCount := 1
  queueCapacity := 1
  threads := [{ kind := .outside, call := joiner },
    { kind := .attached, job := some (0, false), call }]
  workers := [1]
  lifecycleHolder := holder
  stopping := stopping
  submitted := 1
  taken := [0]

theorem run_jobRunning : ∃ as, Run ExecutorStep (started 1 1) as
    (jobRunning .none .none false none) :=
  ⟨_, .cons (.spawn _) <| .cons (@ExecutorStep.callSubmit _ 0 { kind := .outside } rfl
      ⟨rfl, Or.inl rfl⟩) <|
    .cons (@ExecutorStep.accept _ 0 { kind := .outside, call := .wantsSubmit } rfl rfl rfl
      (by unfold Rejects; decide)) <|
    .cons (@ExecutorStep.take _ 1 0 [] { kind := .attached } rfl (by decide) rfl rfl rfl) .nil⟩

/-- A thread shuts the executor down, and then the job does. -/
theorem run_joined : ∃ as, Run ExecutorStep (jobRunning .none .none false none) as
    (jobRunning .wantsShutdown (.joining [1]) true (some 0)) :=
  ⟨_, .cons (@ExecutorStep.callShutdown _ 0 { kind := .outside } rfl ⟨rfl, Or.inl rfl⟩) <|
    .cons (@ExecutorStep.lockShutdown _ 0 { kind := .outside, call := .wantsShutdown } rfl rfl
      rfl) <|
    .cons (@ExecutorStep.swap _ 0 { kind := .outside, call := .locked } rfl rfl) <|
    .cons (@ExecutorStep.joinWorkers _ 0 { kind := .outside, call := .cancelling [] } rfl rfl) <|
    .cons (@ExecutorStep.callShutdown _ 1 { kind := .attached, job := some (0, false) } rfl
      ⟨rfl, Or.inr rfl⟩) .nil⟩

theorem joined_jobRunning :
    (jobRunning .wantsShutdown (.joining [1]) true (some 0)).Joined 0 where
  holder := rfl
  joiner := rfl
  worker := rfl
  alone i t h hshutting := by
    match i, h with
    | 0, _ => rfl
    | 1, h =>
      cases h
      exact hshutting.elim
    | _ + 2, h => simp [jobRunning] at h
  only i t h leased hjob := by
    match i, h with
    | 0, h =>
      cases h
      contradiction
    | 1, _ => rfl
    | _ + 2, h => simp [jobRunning] at h
  notQueued := List.not_mem_nil
  unsettled _ := List.not_mem_nil

/-- Not every future can be satisfied. -/
theorem not_forall_satisfied : ¬ ∀ (workerCount queueCapacity : ℕ) (as : List ExecutorLabel)
    (s : Executor), Run ExecutorStep (started workerCount queueCapacity) as s →
    ∀ n < s.submitted, ∃ (bs : List ExecutorLabel) (s' : Executor) (o : JobOutcome),
      Run ExecutorStep s bs s' ∧ (n, o) ∈ s'.settled := by
  intro h
  obtain ⟨as, hstart⟩ := run_jobRunning
  obtain ⟨bs, hjoined⟩ := run_joined
  obtain ⟨cs, s', o, hrun, hsettled⟩ := h 1 1 _ _ (hstart.append hjoined) 0 Nat.one_pos
  exact not_settled_of_joined joined_jobRunning hrun o hsettled

end Executor

end CppLinq
