import CppLinq.ConnectionPool
import Mathlib.Data.List.Induction

/-!
# Pool accounting

`total_connections_` counts the idle connections, those of live leases and the creations in
progress, in every state that an interleaving of the critical sections reaches
(`Accounted`). A connection is in one place, and the pool closes every open connection that
it lets go of. What a call decides under the mutex is said once (`Decides`), and so is what
the other critical sections do.
-/

namespace CppLinq

/-! ## Counters -/

/-- Counters do not overflow below a bound. -/
theorem toNat_add_one {a b : UInt64} (h : a < b) : (a + 1).toNat = a.toNat + 1 := by
  have hlt : a.toNat < b.toNat := UInt64.lt_iff_toNat_lt.mp h
  have hb := b.toNat_lt
  rw [UInt64.toNat_add, UInt64.toNat_one]
  exact Nat.mod_eq_of_lt (by omega)

theorem toNat_sub_ofNat {a : UInt64} {n : ℕ} (h : n ≤ a.toNat) :
    (a - .ofNat n).toNat = a.toNat - n := by
  have ha := a.toNat_lt
  have hn : (UInt64.ofNat n).toNat = n :=
    UInt64.toNat_ofNat_of_lt' (by simp only [UInt64.size]; omega)
  rw [UInt64.toNat_sub_of_le, hn]
  rw [UInt64.le_iff_toNat_le, hn]
  exact h

theorem toNat_sub_one {a : UInt64} (h : 1 ≤ a.toNat) : (a - 1).toNat = a.toNat - 1 :=
  toNat_sub_ofNat h

/-! ## The critical sections -/

namespace ConnectionPoolState

variable {s s' : ConnectionPoolState} {r : Request} {d : Decision}

/-- What a call that asks for a connection does to the pool, by what it decides. -/
inductive Decides (s : ConnectionPoolState) : ConnectionPoolState → Decision → Prop
  | refused (thrown : Option Exn) : Decides s s (.refused thrown)
  | pooled {c : ConnId} (hclosed : s.closed = false) (hidle : c ∈ s.idleConnections.getLast?) :
    Decides s { s with idleConnections := s.idleConnections.dropLast } (.pooled c)
  | creating (hclosed : s.closed = false)
    (hlt : s.totalConnections < s.config.maxConnections) :
    Decides s { s with totalConnections := s.totalConnections + 1 } .creating

/-- What `acquire` does after its wait is a decision. -/
theorem decides_afterWait (s : ConnectionPoolState) (r : Request) (stopped success : Bool) :
    Decides s (s.afterWait r stopped success).1 (s.afterWait r stopped success).2 := by
  unfold afterWait
  split
  · exact .refused _
  split
  · exact .refused _
  rename_i hclosed
  split
  · exact .refused _
  split
  · rename_i hlast
    exact .pooled (by simpa using hclosed) hlast
  split
  · rename_i hlt
    exact .creating (by simpa using hclosed) hlt
  · exact .refused _

/-- So is what it does when it wakes. -/
theorem decides_wait {stopped timedOut : Bool}
    (h : s.wait r stopped timedOut = some (s', d)) : Decides s s' d := by
  unfold wait at h
  split at h
  · have hd := decides_afterWait s r stopped true
    rwa [Option.some.inj h] at hd
  split at h
  · have hd := decides_afterWait s r stopped false
    rwa [Option.some.inj h] at hd
  · contradiction

/-- So is what it does at once. -/
theorem decides_enter {stopped : Bool} (h : s.enter r stopped = some (s', d)) :
    Decides s s' d := by
  unfold enter at h
  split at h
  · cases h
    exact .refused _
  · exact decides_wait h

end ConnectionPoolState

/-! ## The invariant -/

namespace PoolSystem

/-- The pool has called `close()` on the connection, or it is not open. -/
def ClosedIfOpen (s : PoolSystem) (c : ConnId) : Prop :=
  ∀ p ∈ s.connections[c]?, p.isOpen = true → p.closeCalled = true

/-- Every connection of a pool is accounted for. -/
structure Accounted (s : PoolSystem) : Prop where
  total_eq : s.state.totalConnections.toNat =
    s.state.idleConnections.length + s.leased.length + s.creations
  total_le : s.state.totalConnections ≤ s.state.config.maxConnections
  /-- Every connection is idle, or of one lease, or was let go, and that once. -/
  places : (s.state.idleConnections ++ s.leased ++ s.letGo).Perm
    (List.range s.connections.length)
  closed_idle : s.state.closed = true → s.state.idleConnections = []
  letGo_closed : ∀ c ∈ s.letGo, c ∈ s.toClose ∨ s.ClosedIfOpen c

variable {s : PoolSystem} {i : ℕ} {p q : PoolThread}

theorem creations_setThread (h : s.threads[i]? = some p) (q : PoolThread) :
    p.creations + (s.setThread i q).creations = q.creations + s.creations :=
  sum_map_set h PoolThread.creations q

theorem mem_toClose_setThread {c : ConnId} (h : s.threads[i]? = some p) (q : PoolThread)
    (hc : c ∈ s.toClose) : c ∈ p.toClose ∨ c ∈ (s.setThread i q).toClose := by
  rw [← List.mem_append]
  exact (flatMap_set_perm h PoolThread.toClose q).mem_iff.mpr (List.mem_append_right _ hc)

/-- A thread that has nothing to close leaves it to the others. -/
theorem mem_toClose_of_nil {c : ConnId} (h : s.threads[i]? = some p) (hp : p.toClose = [])
    (q : PoolThread) (hc : c ∈ s.toClose) : c ∈ (s.setThread i q).toClose := by
  rcases mem_toClose_setThread h q hc with hmem | hmem
  · rw [hp] at hmem
    contradiction
  · exact hmem

theorem mem_toClose_own {c : ConnId} (h : s.threads[i]? = some p) (hc : c ∈ q.toClose) :
    c ∈ (s.setThread i q).toClose := by
  obtain ⟨hi, -⟩ := List.getElem?_eq_some_iff.mp h
  exact List.mem_flatMap.mpr ⟨q, List.mem_set hi q, hc⟩

/-! ## Threads and objects -/

/-- A thread goes on without a change of the pool. -/
theorem Accounted.setThread (hs : s.Accounted) (h : s.threads[i]? = some p)
    (hcreations : q.creations = p.creations)
    (hclose : ∀ c ∈ p.toClose, c ∈ q.toClose ∨ s.ClosedIfOpen c) :
    (s.setThread i q).Accounted := by
  refine ⟨?_, hs.total_le, hs.places, hs.closed_idle, fun c hc => ?_⟩
  · have hsum := creations_setThread h q
    have htotal := hs.total_eq
    change s.state.totalConnections.toNat = s.state.idleConnections.length + s.leased.length +
      (s.setThread i q).creations
    omega
  · rcases hs.letGo_closed c hc with hpending | hclosed
    · rcases mem_toClose_setThread h q hpending with hp | hnew
      · exact (hclose c hp).imp_left (mem_toClose_own h)
      · exact Or.inl hnew
    · exact Or.inr hclosed

/-- Objects that have the same connections between them. -/
theorem Accounted.of_leases (hs : s.Accounted) {leases : List (Option ConnId)}
    (h : (leases.flatMap Option.toList).Perm s.leased) : { s with leases }.Accounted := by
  refine ⟨?_, hs.total_le, ?_, hs.closed_idle, hs.letGo_closed⟩
  · have htotal := hs.total_eq
    rw [← h.length_eq] at htotal
    exact htotal
  · exact ((h.append_left _).append_right _).trans hs.places

/-- A move of a lease leaves the same connections leased. -/
theorem perm_moveConstruct (s : PoolSystem) (k : ℕ) :
    ((s.leases.set k none ++ [s.leases[k]?.join]).flatMap Option.toList).Perm s.leased := by
  rw [List.flatMap_append, List.flatMap_singleton]
  cases h : s.leases[k]? with
  | none =>
    rw [List.set_eq_of_length_le (List.getElem?_eq_none_iff.mp h)]
    simp [leased]
  | some o => exact List.perm_append_comm.trans (flatMap_set_perm h Option.toList none)

theorem perm_moveInto {target : ℕ} (h : s.leases[target]? = some none) {k : ℕ}
    (hne : target ≠ k) :
    (((s.leases.set k none).set target s.leases[k]?.join).flatMap Option.toList).Perm
      s.leased := by
  have htarget : (s.leases.set k none)[target]? = some none := by
    rw [List.getElem?_set_ne hne.symm, h]
  refine (flatMap_set_perm htarget Option.toList _).trans ?_
  cases hk : s.leases[k]? with
  | none =>
    rw [List.set_eq_of_length_le (List.getElem?_eq_none_iff.mp hk)]
    exact List.Perm.refl _
  | some o => exact flatMap_set_perm hk Option.toList none

/-! ## Connections -/

/-- A connection that is closed is closed, whether or not the close throws. -/
theorem closedIfOpen_closeConnection {c d : ConnId} (throws : Bool) (h : d = c ∨ s.ClosedIfOpen d) :
    (s.closeConnection c throws).ClosedIfOpen d := by
  intro p hp hopen
  simp only [closeConnection, List.getElem?_modify, Option.mem_def, Option.map_eq_map,
    Option.map_eq_some_iff] at hp
  obtain ⟨p', hp', rfl⟩ := hp
  split at hopen
  · rename_i hcd
    simp [hcd]
  · rename_i hcd
    rw [if_neg hcd]
    rcases h with rfl | h
    · exact absurd rfl hcd
    · exact h p' hp' hopen

theorem closedIfOpen_setOpen {c d : ConnId} {isOpen : Bool} (h : s.ClosedIfOpen d)
    (hopen : isOpen = true → d ≠ c) : (s.setOpen c isOpen).ClosedIfOpen d := by
  intro p hp hp'
  simp only [setOpen, List.getElem?_modify, Option.mem_def, Option.map_eq_map,
    Option.map_eq_some_iff] at hp
  obtain ⟨p₀, hp₀, rfl⟩ := hp
  split at hp'
  · rename_i hcd
    exact absurd hcd.symm (hopen hp')
  · rename_i hcd
    rw [if_neg hcd]
    exact h p₀ hp₀ hp'

theorem closedIfOpen_of_not_isOpen {c : ConnId} (h : s.isOpen c = false) : s.ClosedIfOpen c := by
  intro p hp hopen
  rw [Option.mem_def] at hp
  rw [isOpen, hp, Option.any_some, hopen] at h
  contradiction

theorem Accounted.closeConnection (hs : s.Accounted) (c : ConnId) (throws : Bool) :
    (s.closeConnection c throws).Accounted := by
  refine ⟨hs.total_eq, hs.total_le, ?_, hs.closed_idle, fun d hd => ?_⟩
  · have hlength : (s.closeConnection c throws).connections.length = s.connections.length :=
      List.length_modify _ _ _
    rw [hlength]
    exact hs.places
  · exact (hs.letGo_closed d hd).imp_right fun h => closedIfOpen_closeConnection throws (Or.inr h)

theorem Accounted.setOpen (hs : s.Accounted) {c : ConnId} {isOpen : Bool}
    (h : isOpen = true → c ∈ s.leased) : (s.setOpen c isOpen).Accounted := by
  have hlength : (s.setOpen c isOpen).connections.length = s.connections.length :=
    List.length_modify _ _ _
  refine ⟨hs.total_eq, hs.total_le, by rw [hlength]; exact hs.places, hs.closed_idle,
    fun d hd => ?_⟩
  refine (hs.letGo_closed d hd).imp_right fun hclosed => closedIfOpen_setOpen hclosed ?_
  rintro hopen rfl
  -- A connection that was let go is of no lease.
  have hnodup := hs.places.nodup_iff.mpr List.nodup_range
  exact (List.nodup_append.mp hnodup).2.2 d (List.mem_append_right _ (h hopen)) d hd rfl

/-! ## Acquisitions -/

/-- A thread with no creation in progress and nothing to close. -/
structure Clear (p : PoolThread) : Prop where
  creations_eq : p.creations = 0
  toClose_eq : p.toClose = []

theorem leased_lease (s : PoolSystem) (i : ℕ) (c : ConnId) :
    (s.lease i c).leased = s.leased ++ [c] := by
  simp [lease, leased]

theorem creations_lease (h : s.threads[i]? = some p) (c : ConnId) :
    p.creations + (s.lease i c).creations = s.creations :=
  (creations_setThread h (.outside (.ok (some s.leases.length)))).trans (Nat.zero_add _)

theorem mem_toClose_lease {c d : ConnId} (h : s.threads[i]? = some p) (hp : p.toClose = [])
    (hd : d ∈ s.toClose) : d ∈ (s.lease i c).toClose :=
  mem_toClose_of_nil h hp (.outside (.ok (some s.leases.length))) hd

/-- A call takes an idle connection. -/
theorem Accounted.pooled (hs : s.Accounted) (h : s.threads[i]? = some p) (hp : Clear p)
    {c : ConnId} (hclosed : s.state.closed = false)
    (hidle : c ∈ s.state.idleConnections.getLast?) :
    ({ s with state := { s.state with
      idleConnections := s.state.idleConnections.dropLast } }.lease i c).Accounted := by
  have hlast := List.dropLast_append_getLast? c hidle
  refine ⟨?_, hs.total_le, ?_, fun hc => ?_, fun d hd => ?_⟩
  · have htotal := hs.total_eq
    have hsum := creations_lease h c
    have hlength := congrArg List.length hlast
    rw [hp.creations_eq, Nat.zero_add] at hsum
    rw [List.length_append, List.length_singleton] at hlength
    rw [leased_lease, List.length_append, List.length_singleton]
    change s.state.totalConnections.toNat = s.state.idleConnections.dropLast.length +
      (s.leased.length + 1) + (s.lease i c).creations
    omega
  · refine List.Perm.trans ?_ hs.places
    rw [leased_lease, List.perm_iff_count]
    intro a
    have hcount := congrArg (List.count a) hlast
    simp only [List.count_append] at hcount ⊢
    change s.state.idleConnections.dropLast.count a + (s.leased.count a + _) +
      s.letGo.count a = _
    omega
  · exact absurd (hclosed.symm.trans hc) Bool.false_ne_true
  · exact (hs.letGo_closed d hd).imp_left (mem_toClose_lease h hp.toClose_eq)

/-- A call begins to create a connection. -/
theorem Accounted.creating (hs : s.Accounted) (h : s.threads[i]? = some p) (hp : Clear p)
    (hlt : s.state.totalConnections < s.state.config.maxConnections) :
    ({ s with state := { s.state with
      totalConnections := s.state.totalConnections + 1 } }.setThread i .creating).Accounted := by
  have hadd := toNat_add_one hlt
  refine ⟨?_, ?_, hs.places, hs.closed_idle, fun d hd => ?_⟩
  · have htotal := hs.total_eq
    have hsum : p.creations + (s.setThread i .creating).creations = 1 + s.creations :=
      creations_setThread h .creating
    rw [hp.creations_eq, Nat.zero_add] at hsum
    change (s.state.totalConnections + 1).toNat = s.state.idleConnections.length +
      s.leased.length + (s.setThread i .creating).creations
    omega
  · have hlt' := UInt64.lt_iff_toNat_lt.mp hlt
    refine UInt64.le_iff_toNat_le.mpr ?_
    change (s.state.totalConnections + 1).toNat ≤ s.state.config.maxConnections.toNat
    omega
  · exact (hs.letGo_closed d hd).imp_left (mem_toClose_of_nil h hp.toClose_eq .creating)

/-- A thread that holds no connection goes on as it has decided. -/
theorem Accounted.decide (hs : s.Accounted) (h : s.threads[i]? = some p) (hp : Clear p)
    {state : ConnectionPoolState} {d : Decision} (hd : s.state.Decides state d) :
    (s.decide i (state, d)).Accounted := by
  have hnone : ∀ c ∈ p.toClose, ∀ P : Prop, P := by
    intro c hc
    rw [hp.toClose_eq] at hc
    contradiction
  cases hd with
  | refused thrown =>
    cases thrown with
    | none => exact hs.setThread h hp.creations_eq.symm fun c hc => hnone c hc _
    | some e => exact hs.setThread h hp.creations_eq.symm fun c hc => hnone c hc _
  | pooled hclosed hidle => exact hs.pooled h hp hclosed hidle
  | creating hclosed hlt => exact hs.creating h hp hlt

/-- Each operation of a thread keeps the accounts. -/
theorem Accounted.decideOrWait (hs : s.Accounted) (h : s.threads[i]? = some p) (hp : Clear p)
    {r : Request} {token : Option ℕ} {o : Option (ConnectionPoolState × Decision)}
    (ho : ∀ d, o = some d → s.state.Decides d.1 d.2) : (s.decideOrWait i r token o).Accounted := by
  cases o with
  | none =>
    refine hs.setThread h hp.creations_eq.symm fun c hc => ?_
    rw [hp.toClose_eq] at hc
    contradiction
  | some d => exact hs.decide h hp (ho d rfl)

/-- The connection of a creation. -/
theorem Accounted.created (hs : s.Accounted) (h : s.threads[i]? = some .creating) :
    (s.created i).Accounted := by
  have hlength : (s.created i).connections.length = s.connections.length + 1 :=
    List.length_append
  have hleased : (s.created i).leased = s.leased ++ [s.connections.length] := leased_lease ..
  refine ⟨?_, hs.total_le, ?_, hs.closed_idle, fun d hd => ?_⟩
  · have htotal := hs.total_eq
    have hsum := creations_lease h s.connections.length
    rw [PoolThread.creations] at hsum
    rw [hleased, List.length_append, List.length_singleton]
    change s.state.totalConnections.toNat = s.state.idleConnections.length +
      (s.leased.length + 1) + (s.lease i s.connections.length).creations
    omega
  · have hplaces := hs.places.append_right [s.connections.length]
    rw [← List.range_succ] at hplaces
    rw [hlength, hleased]
    refine List.Perm.trans ?_ hplaces
    rw [List.perm_iff_count]
    intro a
    simp only [List.count_append]
    change s.state.idleConnections.count a + _ + s.letGo.count a = _
    omega
  · have hd' : d < s.connections.length := by
      have hmem := hs.places.mem_iff.mp (List.mem_append_right _ hd)
      exact List.mem_range.mp hmem
    refine (hs.letGo_closed d hd).imp (mem_toClose_lease h rfl) fun hclosed => ?_
    intro p hp
    refine hclosed p ?_
    change p ∈ (s.connections ++ _)[d]? at hp
    rwa [List.getElem?_append_left hd'] at hp

/-- A creation that failed. -/
theorem Accounted.creationFailed (hs : s.Accounted) {e : Exn}
    (h : s.threads[i]? = some (.createFailed e)) : (s.creationFailed i e).Accounted := by
  have htotal := hs.total_eq
  have hsum : 1 + (s.setThread i (.outside (.error e))).creations = 0 + s.creations :=
    creations_setThread h (.outside (.error e))
  have hsub : (s.state.totalConnections - 1).toNat = s.state.totalConnections.toNat - 1 :=
    toNat_sub_one (by omega)
  refine ⟨?_, ?_, hs.places, hs.closed_idle, fun d hd => ?_⟩
  · change (s.state.totalConnections - 1).toNat = s.state.idleConnections.length +
      s.leased.length + (s.setThread i (.outside (.error e))).creations
    omega
  · have hle := UInt64.le_iff_toNat_le.mp hs.total_le
    refine UInt64.le_iff_toNat_le.mpr ?_
    change (s.state.totalConnections - 1).toNat ≤ s.state.config.maxConnections.toNat
    omega
  · exact (hs.letGo_closed d hd).imp_left (mem_toClose_of_nil h rfl (.outside (.error e)))

/-! ## Returns -/

/-- The object of a connection, without it. -/
theorem leased_release {k : ℕ} {c : ConnId} (h : s.leases[k]? = some (some c)) :
    (c :: { s with leases := s.leases.set k none }.leased).Perm s.leased :=
  flatMap_set_perm h Option.toList none

/-- A return after which the connection no longer belongs to the pool. -/
theorem Accounted.dropped (hs : s.Accounted) {result : Except Exn (Option ℕ)}
    (h : s.threads[i]? = some (.outside result)) {k : ℕ} {c : ConnId}
    (hk : s.leases[k]? = some (some c)) (hq : q.creations = 0)
    (hc : c ∈ q.toClose ∨ s.ClosedIfOpen c) :
    ({ s with
      state := { s.state with totalConnections := s.state.totalConnections - 1 }
      leases := s.leases.set k none
      letGo := s.letGo ++ [c] }.setThread i q).Accounted := by
  have htotal := hs.total_eq
  have hleased := leased_release hk
  have hlength := hleased.length_eq
  rw [List.length_cons] at hlength
  have hsum := creations_setThread h q
  have hsub : (s.state.totalConnections - 1).toNat = s.state.totalConnections.toNat - 1 :=
    toNat_sub_one (by omega)
  refine ⟨?_, ?_, ?_, hs.closed_idle, fun d hd => ?_⟩
  · rw [hq] at hsum
    change 0 + (s.setThread i q).creations = 0 + s.creations at hsum
    change (s.state.totalConnections - 1).toNat = s.state.idleConnections.length +
      { s with leases := s.leases.set k none }.leased.length + (s.setThread i q).creations
    omega
  · have hle := UInt64.le_iff_toNat_le.mp hs.total_le
    refine UInt64.le_iff_toNat_le.mpr ?_
    change (s.state.totalConnections - 1).toNat ≤ s.state.config.maxConnections.toNat
    omega
  · refine List.Perm.trans ?_ hs.places
    rw [List.perm_iff_count]
    intro a
    have hcount := hleased.count_eq a
    change (s.state.idleConnections ++ { s with leases := s.leases.set k none }.leased ++
      (s.letGo ++ [c])).count a = _
    simp only [List.count_append, List.count_cons, List.count_nil] at hcount ⊢
    omega
  · rcases List.mem_append.mp hd with hd | hd
    · exact (hs.letGo_closed d hd).imp_left (mem_toClose_of_nil h rfl q)
    · rw [List.mem_singleton.mp hd]
      exact hc.imp_left (mem_toClose_own h)

/-- A return after which the connection is idle. -/
theorem Accounted.returned (hs : s.Accounted) {result : Except Exn (Option ℕ)}
    (h : s.threads[i]? = some (.outside result)) {k : ℕ} {c : ConnId}
    (hk : s.leases[k]? = some (some c)) (hclosed : s.state.closed = false) :
    ({ s with
      state := { s.state with idleConnections := s.state.idleConnections ++ [c] }
      leases := s.leases.set k none }.setThread i (.outside (.ok none))).Accounted := by
  have htotal := hs.total_eq
  have hleased := leased_release hk
  have hlength := hleased.length_eq
  rw [List.length_cons] at hlength
  have hsum : 0 + (s.setThread i (.outside (.ok none))).creations = 0 + s.creations :=
    creations_setThread h (.outside (.ok none))
  refine ⟨?_, hs.total_le, ?_, fun hc => ?_, fun d hd => ?_⟩
  · change s.state.totalConnections.toNat = (s.state.idleConnections ++ [c]).length +
      { s with leases := s.leases.set k none }.leased.length +
      (s.setThread i (.outside (.ok none))).creations
    rw [List.length_append, List.length_singleton]
    omega
  · refine List.Perm.trans ?_ hs.places
    rw [List.perm_iff_count]
    intro a
    have hcount := hleased.count_eq a
    change (s.state.idleConnections ++ [c] ++ { s with leases := s.leases.set k none }.leased ++
      s.letGo).count a = _
    simp only [List.count_append, List.count_cons, List.count_nil] at hcount ⊢
    omega
  · exact absurd (hclosed.symm.trans hc) Bool.false_ne_true
  · exact (hs.letGo_closed d hd).imp_left (mem_toClose_of_nil h rfl (.outside (.ok none)))

/-- A return of an open connection while the pool is open. -/
theorem release_idle {k : ℕ} {c : ConnId} (hk : s.leases[k]? = some (some c))
    (hclosed : s.state.closed = false) (hopen : s.isOpen c = true) :
    s.release i k = { s with
      state := { s.state with idleConnections := s.state.idleConnections ++ [c] }
      leases := s.leases.set k none }.setThread i (.outside (.ok none)) := by
  have hopen' : { s with leases := s.leases.set k none }.isOpen c = true := hopen
  simp [release, hk, returnConnection, ConnectionPoolState.returnConnection, hclosed, hopen']

/-- Any other return. -/
theorem release_dropped {k : ℕ} {c : ConnId} (hk : s.leases[k]? = some (some c))
    (h : s.state.closed = true ∨ s.isOpen c = false) :
    s.release i k = { s with
      state := { s.state with totalConnections := s.state.totalConnections - 1 }
      leases := s.leases.set k none
      letGo := s.letGo ++ [c] }.setThread i
      (if s.isOpen c then .closingReturned c else .outside (.ok none)) := by
  have hisOpen : { s with leases := s.leases.set k none }.isOpen c = s.isOpen c := rfl
  rcases h with h | h
  · simp [release, hk, returnConnection, ConnectionPoolState.returnConnection, h, hisOpen]
  · simp [release, hk, returnConnection, ConnectionPoolState.returnConnection, h, hisOpen]

theorem Accounted.release (hs : s.Accounted) {result : Except Exn (Option ℕ)}
    (h : s.threads[i]? = some (.outside result)) (k : ℕ) : (s.release i k).Accounted := by
  cases hc : s.leases[k]?.join with
  | none =>
    have hself : s.release i k = s := by rw [PoolSystem.release, hc]
    rwa [hself]
  | some c =>
    have hk : s.leases[k]? = some (some c) := Option.join_eq_some_iff.mp hc
    cases hopen : s.isOpen c with
    | false =>
      rw [release_dropped hk (Or.inr hopen), hopen]
      exact hs.dropped h hk rfl (Or.inr (closedIfOpen_of_not_isOpen hopen))
    | true =>
      cases hclosed : s.state.closed with
      | false =>
        rw [release_idle hk hclosed hopen]
        exact hs.returned h hk hclosed
      | true =>
        rw [release_dropped hk (Or.inl hclosed), hopen]
        exact hs.dropped h hk rfl (Or.inl (List.mem_singleton_self c))

/-- After a release the object has no connection. -/
theorem leases_release (s : PoolSystem) (i k : ℕ) :
    (s.release i k).leases = s.leases ∧ s.leases[k]?.join = none ∨
      (s.release i k).leases = s.leases.set k none := by
  cases hc : s.leases[k]?.join with
  | none => exact Or.inl ⟨by rw [release, hc], rfl⟩
  | some c => exact Or.inr (by rw [release, hc]; rfl)

theorem Accounted.moveAssign (hs : s.Accounted) {result : Except Exn (Option ℕ)}
    (h : s.threads[i]? = some (.outside result)) {target : ℕ} (ht : target < s.leases.length)
    (k : ℕ) : (s.moveAssign i target k).Accounted := by
  unfold PoolSystem.moveAssign
  split
  · exact hs
  rename_i hne
  refine (hs.release h target).of_leases (perm_moveInto ?_ hne)
  rcases leases_release s i target with ⟨hleases, hnone⟩ | hleases
  · rw [hleases, List.getElem?_eq_getElem ht]
    rw [List.getElem?_eq_getElem ht] at hnone
    exact congrArg some hnone
  · rw [hleases, List.getElem?_set_self ht]

theorem Accounted.close (hs : s.Accounted) {result : Except Exn (Option ℕ)}
    (h : s.threads[i]? = some (.outside result)) : (s.close i).Accounted := by
  have htotal := hs.total_eq
  have hsum : ∀ cs, 0 + (s.setThread i (.closing cs)).creations = 0 + s.creations := fun cs =>
    creations_setThread h (.closing cs)
  have hmem : ∀ cs, ∀ d ∈ s.toClose, d ∈ (s.setThread i (.closing cs)).toClose :=
    fun cs _ => mem_toClose_of_nil h rfl (.closing cs)
  cases hclosed : s.state.closed with
  | true =>
    have hclose : s.close i =
        { s with letGo := s.letGo ++ [] }.setThread i (.closing []) := by
      rw [PoolSystem.close, ConnectionPoolState.close, hclosed]
      rfl
    rw [hclose, List.append_nil]
    exact hs.setThread h rfl fun c hc => absurd hc List.not_mem_nil
  | false =>
    have hclose : s.close i = { s with
        state := { s.state with
          closed := true
          idleConnections := []
          totalConnections :=
            s.state.totalConnections - UInt64.ofNat s.state.idleConnections.length }
        letGo := s.letGo ++ s.state.idleConnections }.setThread i
          (.closing s.state.idleConnections) := by
      rw [PoolSystem.close, ConnectionPoolState.close, hclosed]
      rfl
    have hsub : (s.state.totalConnections - UInt64.ofNat s.state.idleConnections.length).toNat =
        s.state.totalConnections.toNat - s.state.idleConnections.length :=
      toNat_sub_ofNat (by omega)
    rw [hclose]
    refine ⟨?_, ?_, ?_, fun _ => rfl, fun d hd => ?_⟩
    · have hsum' := hsum s.state.idleConnections
      change (s.state.totalConnections - _).toNat = 0 + s.leased.length +
        (s.setThread i (.closing s.state.idleConnections)).creations
      omega
    · have hle := UInt64.le_iff_toNat_le.mp hs.total_le
      refine UInt64.le_iff_toNat_le.mpr ?_
      change (s.state.totalConnections - _).toNat ≤ s.state.config.maxConnections.toNat
      omega
    · refine List.Perm.trans ?_ hs.places
      rw [List.perm_iff_count]
      intro a
      change (s.leased ++ (s.letGo ++ s.state.idleConnections)).count a = _
      simp only [List.count_append]
      omega
    · rcases List.mem_append.mp hd with hd | hd
      · exact (hs.letGo_closed d hd).imp_left (hmem s.state.idleConnections d)
      · exact Or.inl (mem_toClose_own h hd)

theorem Accounted.closeNext (hs : s.Accounted) {c : ConnId} {cs : List ConnId}
    (h : s.threads[i]? = some (.closing (c :: cs))) (throws : Bool) :
    (s.closeNext i c cs throws).Accounted := by
  unfold PoolSystem.closeNext
  split
  · refine (hs.closeConnection c throws).setThread h rfl fun d hd => ?_
    rcases List.mem_cons.mp hd with rfl | hd
    · exact Or.inr (closedIfOpen_closeConnection throws (Or.inl rfl))
    · exact Or.inl hd
  · rename_i hopen
    refine hs.setThread h rfl fun d hd => ?_
    rcases List.mem_cons.mp hd with rfl | hd
    · exact Or.inr (closedIfOpen_of_not_isOpen (by simpa using hopen))
    · exact Or.inl hd

/-! ## Runs -/

/-- Every step keeps the accounts. -/
theorem Accounted.step {t : PoolSystem} {l : Option ℕ} (hs : s.Accounted) (h : PoolStep s l t) :
    t.Accounted := by
  cases h with
  | spawn =>
    refine ⟨?_, hs.total_le, hs.places, hs.closed_idle, fun c hc => ?_⟩
    · rw [creations, List.map_append, List.sum_append]
      exact hs.total_eq
    · refine (hs.letGo_closed c hc).imp_left fun hmem => ?_
      rw [toClose, List.flatMap_append]
      exact List.mem_append_left _ hmem
  | requestStop k => exact ⟨hs.total_eq, hs.total_le, hs.places, hs.closed_idle, hs.letGo_closed⟩
  | lose c => exact hs.setOpen (by simp)
  | reopen h => exact hs.setOpen fun _ => h
  | default => exact hs.of_leases (by simp [leased])
  | request h r token =>
    unfold PoolSystem.request
    split <;> exact hs.setThread h rfl fun c hc => absurd hc List.not_mem_nil
  | @enter i r token h =>
    exact hs.decideOrWait h ⟨rfl, rfl⟩ fun d hd => ConnectionPoolState.decides_enter hd
  | @wake i r token h timedOut =>
    exact hs.decideOrWait h ⟨rfl, rfl⟩ fun d hd => ConnectionPoolState.decides_wait hd
  | created h => exact hs.created h
  | createFails h e => exact hs.setThread h rfl fun c hc => absurd hc List.not_mem_nil
  | creationFailed h => exact hs.creationFailed h
  | release h k => exact hs.release h k
  | moveConstruct h k => exact hs.of_leases (perm_moveConstruct s k)
  | moveAssign h ht k => exact hs.moveAssign h ht k
  | close h => exact hs.close h
  | closeNext h throws => exact hs.closeNext h throws
  | closed h => exact hs.setThread h rfl fun c hc => absurd hc List.not_mem_nil
  | @closeReturned i c h throws =>
    refine (hs.closeConnection c throws).setThread h rfl fun d hd => ?_
    rw [List.mem_singleton.mp hd]
    exact Or.inr (closedIfOpen_closeConnection throws (Or.inl rfl))

theorem initialized_eq (config : NormalConfig) (created : List ConnId) :
    ConnectionPoolState.initialized config created =
      ⟨config, created, .ofNat created.length, false⟩ := by
  induction created using List.reverseRecOn with
  | nil => rfl
  | append_singleton cs c ih =>
    rw [ConnectionPoolState.initialized] at ih ⊢
    rw [List.foldl_append, ih, List.length_append, List.length_singleton, UInt64.ofNat_add]
    rfl

/-- The accounts of a new pool are in order. -/
theorem accounted_started (config : PoolConfig) : (started config).Accounted := by
  have hstate : (started config).state = ⟨config.normalized,
      List.range config.normalized.minConnections.toNat, config.normalized.minConnections,
      false⟩ := by
    rw [started, initialized_eq, List.length_range, UInt64.ofNat_toNat]
  refine ⟨?_, ?_, ?_, ?_, fun c hc => absurd hc List.not_mem_nil⟩
  · rw [hstate]
    simp [leased, creations, started]
  · rw [hstate]
    exact config.normalized.min_le_max
  · rw [hstate]
    simp [leased, started]
  · rw [hstate]
    exact fun h => absurd h Bool.false_ne_true

/-- Pool accounting. In every state that an interleaving reaches, the counter is the number
of idle connections, of live leases and of creations in progress, and at most the maximum;
every connection is in one place; the active connections are counted without underflow; a
closed pool has no idle connections; and once its leases are released and its creations have
finished it counts no connection, and has closed every one that was open when the calls that
close connections return. -/
theorem pool_accounting (config : PoolConfig) {ls : List (Option ℕ)} {s : PoolSystem}
    (h : Run PoolStep (started config) ls s) :
    s.state.size.toNat = s.state.idleConnections.length + s.leased.length + s.creations ∧
    s.state.size ≤ s.state.config.maxConnections ∧
    (s.state.idleConnections ++ s.leased ++ s.letGo).Perm (List.range s.connections.length) ∧
    s.state.activeCount.toNat = s.leased.length + s.creations ∧
    (s.state.closed = true → s.state.idleConnections = []) ∧
    (s.state.closed = true → s.leased = [] → s.creations = 0 →
      s.state.size = 0 ∧
      (s.toClose = [] → ∀ c < s.connections.length, s.ClosedIfOpen c)) := by
  have hs : s.Accounted :=
    h.invariant (P := Accounted) (fun hs => hs.step) (accounted_started config)
  have htotal := hs.total_eq
  refine ⟨htotal, hs.total_le, hs.places, ?_, hs.closed_idle, fun hclosed hleased hcreations => ?_⟩
  · have hactive : s.state.activeCount.toNat = s.state.totalConnections.toNat -
        s.state.idleConnections.length := toNat_sub_ofNat (by omega)
    omega
  have hidle := hs.closed_idle hclosed
  refine ⟨?_, fun hpending c hc => ?_⟩
  · rw [hidle, hleased, hcreations] at htotal
    exact UInt64.toNat_inj.mp htotal
  · have hmem := hs.places.mem_iff.mpr (List.mem_range.mpr hc)
    rw [hidle, hleased] at hmem
    rcases hs.letGo_closed c hmem with hclose | hclose
    · rw [hpending] at hclose
      contradiction
    · exact hclose

/-- A lease that is released after the pool was closed. -/
theorem pool_accounting_lease : ∃ s, Run PoolStep (started { maxConnections := 2 })
    [none, some 0, some 0, some 0, some 0, some 0, some 0] s ∧ s.letGo = [0] ∧
    s.state.size.toNat = s.state.idleConnections.length + s.leased.length + s.creations := by
  have hrun : Run PoolStep (started { maxConnections := 2 })
      [none, some 0, some 0, some 0, some 0, some 0, some 0] _ :=
    .cons (.spawn _) <| .cons (.request rfl .acquire none) <| .cons (.enter rfl) <|
      .cons (.close rfl) <| .cons (.closed rfl) <| .cons (.release rfl 0) <|
      .cons (.closeReturned rfl false) .nil
  exact ⟨_, hrun, rfl, (pool_accounting _ hrun).1⟩

end PoolSystem

end CppLinq
