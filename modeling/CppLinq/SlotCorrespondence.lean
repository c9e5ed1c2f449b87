import CppLinq.StatementTrees

/-!
# Placeholders and slots

The drivers bind by position, so the `k`-th placeholder of a statement should be the one
its `k`-th slot was recorded for. A statement has as many placeholders as slots exactly
where its trees drop nothing that carries a value (`generate_slots_iff`) : an `IN` over an
empty list is written as a constant, without the text of the tested expression. Where no
list is empty, the placeholders stand in the order of the slots exactly where no
SQL Server date addition has values on both sides (`generate_inOrder_iff`).
-/

namespace CppLinq

open Template

namespace ExprNode

/-- The node is no `IN` over an empty list. -/
def NonemptyIn : ExprNode → Prop
  | .inList _ [] _ => False
  | _ => True

/-- The node drops no value : an `IN` over an empty list tests an expression without any. -/
def DropsNothing : ExprNode → Prop
  | .inList e [] _ => e.leaves = []
  | _ => True

/-- The node swaps no values : a date addition on SQL Server has values on one side only. -/
def SwapsNothing (d : Dialect) : ExprNode → Prop
  | .dateAdd e days => d = .mssql → e.leaves = [] ∨ days.leaves = []
  | _ => True

theorem NonemptyIn.dropsNothing {n : ExprNode} (h : n.NonemptyIn) : n.DropsNothing := by
  cases n with
  | inList e values isNot =>
    cases values with
    | nil => exact h.elim
    | cons => trivial
  | _ => trivial

/-- Below a node without values no node drops one. -/
theorem dropsNothing_of_leaves_eq_nil {n : ExprNode} (h : n.leaves = []) :
    ∀ m ∈ n.visited, m.DropsNothing := by
  induction n using children_induction with
  | step n ih =>
    have hc : ∀ c ∈ n.children, c.leaves = [] := by
      rw [leaves_eq, List.append_eq_nil_iff, List.flatMap_eq_nil_iff] at h
      exact h.2
    rw [forall_mem_visited]
    refine ⟨?_, fun c hmem => ih c hmem (hc c hmem)⟩
    cases n with
    | inList e values isNot =>
      cases values with
      | nil => exact hc e List.mem_cons_self
      | cons => trivial
    | _ => trivial

end ExprNode

/-! ## Trees -/

section Trees

variable {d : Dialect} {n : ExprNode}

/-- A visit writes the template of the tree and records its leaves. -/
theorem visit_eq (d : Dialect) (n : ExprNode) (c : Context) :
    visit d n c = ((template d n).text c.paramCounter, c.record n.leaves) := by
  obtain ⟨text, h⟩ := visit_records d n
  simp [template, h]

theorem conc_template (hs : n.slot? = none) (ho : n.KeepsOrder d) :
    Conc (template d n) (n.children.map (template d)) := by
  obtain ⟨text, h, hh⟩ := visit_writes_of_children hs fun m _ => visit_records d m
  refine ⟨?_, fun k => ?_⟩
  · rw [template_slots, ExprNode.leaves_eq, hs]
    simp [List.flatMap_map]
  · simpa [template, h] using hh ho k

/-- A value node is its own slot and placeholder. -/
theorem holes_template_of_slot {s : ParameterSlot} (hs : n.slot? = some s) (k : ℕ) :
    holes ((template d n).text k) = [k] ∧ n.leaves.length = 1 := by
  cases n with
  | literal v => exact ⟨rfl, by rw [ExprNode.leaves_eq]; rfl⟩
  | paramPlaceholder i => exact ⟨rfl, by rw [ExprNode.leaves_eq]; rfl⟩
  | _ => simp [ExprNode.slot?] at hs

theorem holes_template_inList_nil (e : ExprNode) (isNot : Bool) (k : ℕ) :
    holes ((template d (.inList e [] isNot)).text k) = [] :=
  holes_lit _

theorem holes_template_dateAdd (e days : ExprNode) (k : ℕ) :
    holes ((template .mssql (.dateAdd e days)).text k) =
      holes ((template .mssql days).text (k + e.leaves.length)) ++
        holes ((template .mssql e).text k) := by
  have hrun : ∀ c, (visit .mssql (.dateAdd e days) c).1 = Dialect.dateAddDaysFunc .mssql
      (visit .mssql e c).1 (visit .mssql days (visit .mssql e c).2).1 := fun _ => rfl
  have htext : (template .mssql (.dateAdd e days)).text k =
      Dialect.dateAddDaysFunc .mssql ((template .mssql e).text k)
        ((template .mssql days).text (k + e.leaves.length)) := by
    rw [template]
    simp only [hrun, visit_eq .mssql e, visit_eq .mssql days, Context.paramCounter_record,
      Context.paramCounter_start]
  rw [htext, holes_dateAddDaysFunc, if_pos rfl]

/-- A node consists of its subtrees, an `IN` over an empty list apart. -/
theorem parts_template (hs : n.slot? = none) (hn : n.NonemptyIn) :
    Parts (template d n) (n.children.map (template d)) := by
  by_cases ho : n.KeepsOrder d
  · exact (conc_template hs ho).parts
  cases n with
  | inList e values isNot =>
    cases values with
    | nil => exact hn.elim
    | cons => exact (ho trivial).elim
  | dateAdd e days =>
    obtain rfl : d = .mssql := not_not.mp ho
    refine ⟨?_, fun k => ?_⟩
    · rw [template_slots, ExprNode.leaves_eq]
      simp [ExprNode.slot?, ExprNode.children]
    · rw [holes_template_dateAdd]
      simpa [ExprNode.children, seqHoles] using List.perm_append_comm
  | _ => exact (ho trivial).elim

/-- A tree has no holes but those of its leaves. -/
theorem template_withinAt (d : Dialect) (n : ExprNode) (k : ℕ) : (template d n).WithinAt k := by
  induction n using ExprNode.children_induction generalizing k with
  | step n ih =>
    cases hs : n.slot? with
    | some s =>
      obtain ⟨hh, hl⟩ := holes_template_of_slot (d := d) hs k
      simp [WithinAt, hh, hl]
    | none =>
      by_cases hn : n.NonemptyIn
      · refine (parts_template hs hn).withinAt ?_ k
        simpa using ih
      · cases n with
        | inList e values isNot =>
          cases values with
          | nil => simp [WithinAt, holes_template_inList_nil]
          | cons => exact (hn trivial).elim
        | _ => exact (hn trivial).elim

/-- A tree has a placeholder for every slot iff none of its nodes drops a value. -/
theorem template_keptAt_iff (d : Dialect) (n : ExprNode) (k : ℕ) :
    (template d n).KeptAt k ↔ ∀ m ∈ n.visited, m.DropsNothing := by
  induction n using ExprNode.children_induction generalizing k with
  | step n ih =>
    cases hs : n.slot? with
    | some s =>
      obtain ⟨hh, hl⟩ := holes_template_of_slot (d := d) hs k
      cases n with
      | literal v => simp [KeptAt, hh, ExprNode.visited_eq, ExprNode.children,
          ExprNode.DropsNothing]
      | paramPlaceholder i => simp [KeptAt, hh, ExprNode.visited_eq, ExprNode.children,
          ExprNode.DropsNothing]
      | _ => simp [ExprNode.slot?] at hs
    | none =>
      rw [ExprNode.forall_mem_visited]
      by_cases hn : n.NonemptyIn
      · rw [(parts_template hs hn).keptAt_iff (fun m _ => template_withinAt d m) ih k]
        simp [hn.dropsNothing]
      · cases n with
        | inList e values isNot =>
          cases values with
          | nil =>
            have hl : (ExprNode.inList e [] isNot).leaves = e.leaves := by simp
            have hk : (template d (.inList e [] isNot)).KeptAt k ↔ e.leaves = [] := by
              rw [KeptAt, holes_template_inList_nil, template_slots, hl, List.length_nil, eq_comm,
                List.length_eq_zero_iff]
            rw [hk]
            refine ⟨fun h => ⟨h, ?_⟩, fun h => h.1⟩
            simpa [ExprNode.children] using ExprNode.dropsNothing_of_leaves_eq_nil h
          | cons => exact (hn trivial).elim
        | _ => exact (hn trivial).elim

theorem template_keptAt (h : ∀ m ∈ n.visited, m.NonemptyIn) (k : ℕ) : (template d n).KeptAt k :=
  (template_keptAt_iff d n k).mpr fun m hm => (h m hm).dropsNothing

/-- The placeholders of a tree without empty lists stand in order iff none of its nodes
swaps values. -/
theorem template_inOrderAt_iff (h : ∀ m ∈ n.visited, m.NonemptyIn) (k : ℕ) :
    (template d n).InOrderAt k ↔ ∀ m ∈ n.visited, m.SwapsNothing d := by
  induction n using ExprNode.children_induction generalizing k with
  | step n ih =>
    rw [ExprNode.forall_mem_visited] at h ⊢
    obtain ⟨hn, hc⟩ := h
    cases hs : n.slot? with
    | some s =>
      obtain ⟨hh, hl⟩ := holes_template_of_slot (d := d) hs k
      cases n with
      | literal v => simp [InOrderAt, hh, ExprNode.children, ExprNode.SwapsNothing]
      | paramPlaceholder i => simp [InOrderAt, hh, ExprNode.children, ExprNode.SwapsNothing]
      | _ => simp [ExprNode.slot?] at hs
    | none =>
      have hkept : ∀ c ∈ n.children, ∀ k, (template d c).KeptAt k := fun c hmem k =>
        template_keptAt (hc c hmem) k
      have horder : ∀ c ∈ n.children, ∀ k, (template d c).InOrderAt k ↔
          ∀ m ∈ c.visited, m.SwapsNothing d := fun c hmem k => ih c hmem (hc c hmem) k
      by_cases ho : n.KeepsOrder d
      · have hswap : n.SwapsNothing d := by
          cases n with
          | dateAdd => exact fun hd => (ho hd).elim
          | _ => trivial
        rw [(conc_template hs ho).inOrderAt_iff hkept horder k]
        simp [hswap]
      · cases n with
        | inList e values isNot =>
          cases values with
          | nil => exact hn.elim
          | cons => exact (ho trivial).elim
        | dateAdd e days =>
          obtain rfl : d = .mssql := not_not.mp ho
          have he := hkept e (by simp [ExprNode.children]) k
          have hdays := hkept days (by simp [ExprNode.children]) (k + e.leaves.length)
          have hswap := swap_eq_range'_iff he hdays (template_withinAt _ _ _)
          rw [InOrderAt, holes_template_dateAdd, template_slots, ExprNode.leaves_dateAdd,
            List.length_append]
          simp only [template_slots] at hswap
          rw [hswap, horder e (by simp [ExprNode.children]),
            horder days (by simp [ExprNode.children])]
          simp [ExprNode.children, ExprNode.SwapsNothing]
          tauto
        | _ => exact (ho trivial).elim

end Trees

/-! ## Statements -/

section Statements

variable {d : Dialect} {call : GenerateCall} {r : GeneratedSql}

/-- The values of an upsert are as many as its placeholders. -/
def GenerateCall.ValuesMatch (d : Dialect) : GenerateCall → Prop
  | .upsert _ insertColumns values conflictColumns _ =>
    values.length = d.upsertPlaceholders insertColumns conflictColumns
  | _ => True

/-- What an upsert generates. -/
theorem generate_upsert_eq {table : String} {ins conflict upd : List String}
    {values : List BoundValue} (h : generate d (.upsert table ins values conflict upd) = .ok r) :
    holes r.sql = List.range (d.upsertPlaceholders ins conflict) ∧ r.params = values ∧
      r.slots = values.map .static := by
  change generateUpsert d table ins values conflict upd = .ok r at h
  unfold generateUpsert at h
  cases hs : d.generateUpsert table ins values conflict upd with
  | error e => rw [hs] at h; contradiction
  | ok sql =>
    rw [hs] at h
    injection h with h
    rw [← h]
    exact ⟨holes_generateUpsert hs, rfl, rfl⟩

/-- The slots of a call : those of the values of its trees, or the values of an upsert. -/
def GenerateCall.slots : GenerateCall → List ParameterSlot
  | .upsert _ _ values _ _ => values.map .static
  | call => call.trees.flatMap ExprNode.leaves

/-- A statement records the leaves of its trees. -/
theorem slots_generate (h : generate d call = .ok r) :
    r.slots = call.slots ∧ r.params = staticValues r.slots := by
  by_cases hcall : call.HasTrees
  · have hr := generate_writtenFrom hcall h
    refine ⟨?_, hr.params_eq⟩
    have hslots : call.slots = call.trees.flatMap ExprNode.leaves := by
      cases call with
      | upsert => exact hcall.elim
      | _ => rfl
    rw [hr.slots_eq, hslots, List.flatMap_map]
    simp
  · cases call with
    | upsert table ins values conflict upd =>
      obtain ⟨-, hparams, hslots⟩ := generate_upsert_eq h
      exact ⟨hslots, by simp [hparams, hslots]⟩
    | _ => exact (hcall trivial).elim

/-- A statement has a placeholder for every slot iff its trees drop no value and, for an
upsert, the values are as many as the placeholders. -/
theorem length_holes_iff (h : generate d call = .ok r) :
    (holes r.sql).length = r.slots.length ↔
      (∀ n ∈ call.trees, ∀ m ∈ n.visited, m.DropsNothing) ∧ call.ValuesMatch d := by
  by_cases hcall : call.HasTrees
  · have hr := generate_writtenFrom hcall h
    have hmatch : call.ValuesMatch d := by
      cases call with
      | upsert => exact hcall.elim
      | _ => trivial
    have hkept := length_seqHoles_eq_iff (fun n _ => template_withinAt d n)
      (fun n (_ : n ∈ call.trees) k => template_keptAt_iff d n k) 0
    rw [hr.holes_eq, hr.slots_eq, ← hkept]
    simp [hmatch, slotCount]
  · cases call with
    | upsert table ins values conflict upd =>
      obtain ⟨hholes, hparams, hslots⟩ := generate_upsert_eq h
      simp [hholes, hslots, GenerateCall.trees, GenerateCall.ValuesMatch, eq_comm]
    | _ => exact (hcall trivial).elim

/-- A statement has a placeholder for every slot iff its trees drop no value and, for an
upsert, the values are as many as the placeholders; its parameters are always the static
slots. -/
theorem generate_slots_iff (h : generate d call = .ok r) :
    ((holes r.sql).length = r.slots.length ∧ r.params = staticValues r.slots) ↔
      (∀ n ∈ call.trees, ∀ m ∈ n.visited, m.DropsNothing) ∧ call.ValuesMatch d := by
  rw [and_iff_left (slots_generate h).2]
  exact length_holes_iff h

/-- `1 IN (2)` has two placeholders and two slots. -/
theorem generate_slots_in :
    (holes (lit "(" ++ [.hole 0] ++ lit " IN (" ++ [.hole 1] ++ lit "))")).length = 2 ∧
      [BoundValue.int64 1, .int64 2] = staticValues [.static (.int64 1), .static (.int64 2)] := by
  have hgen : generate .sqlite
      (.expression (.inList (.literal (.int64 1)) [.literal (.int64 2)] false)) =
      .ok ⟨lit "(" ++ [.hole 0] ++ lit " IN (" ++ [.hole 1] ++ lit "))",
        [.int64 1, .int64 2], [.static (.int64 1), .static (.int64 2)]⟩ := rfl
  refine (generate_slots_iff hgen).mpr ⟨?_, trivial⟩
  simp only [GenerateCall.trees, List.forall_mem_singleton]
  simp [ExprNode.visited_eq, ExprNode.children, ExprNode.DropsNothing]

/-- Not every statement has a placeholder for every slot. -/
theorem not_forall_generate_slots : ¬ ∀ (d : Dialect) (call : GenerateCall) (r : GeneratedSql),
    generate d call = .ok r →
      (holes r.sql).length = r.slots.length ∧ r.params = staticValues r.slots := by
  intro h
  have hlen := (h .sqlite (.expression (.inList (.literal (.int64 1)) [] false))
    ⟨lit "(1 = 0)", [.int64 1], [.static (.int64 1)]⟩ rfl).1
  simp at hlen

/-- Where no list of an `IN` is empty, the placeholders are `0, 1, 2, …` from left to right
iff no date addition on SQL Server has values on both sides. -/
theorem holes_inOrder_iff (h : generate d call = .ok r)
    (hIn : ∀ n ∈ call.trees, ∀ m ∈ n.visited, m.NonemptyIn) :
    holes r.sql = List.range (holes r.sql).length ↔
      ∀ n ∈ call.trees, ∀ m ∈ n.visited, m.SwapsNothing d := by
  by_cases hcall : call.HasTrees
  · have hr := generate_writtenFrom hcall h
    have hkept : ∀ n ∈ call.trees, ∀ k, (template d n).KeptAt k := fun n hn =>
      template_keptAt (hIn n hn)
    have hlen : (seqHoles (call.trees.map (template d)) 0).length =
        slotCount (call.trees.map (template d)) :=
      (length_seqHoles_eq_iff (p := fun _ => True) (fun n _ => template_withinAt d n)
        (fun n hn k => by simpa using hkept n hn k) 0).mpr fun _ _ => trivial
    have horder := seqHoles_eq_range'_iff hkept
      (fun n hn k => template_inOrderAt_iff (d := d) (hIn n hn) k) 0
    rw [hr.holes_eq, hlen, List.range_eq_range', horder]
  · cases call with
    | upsert table ins values conflict upd =>
      simp [(generate_upsert_eq h).1, GenerateCall.trees]
    | _ => exact (hcall trivial).elim

theorem length_holes_of_nonemptyIn (h : generate d call = .ok r)
    (hIn : ∀ n ∈ call.trees, ∀ m ∈ n.visited, m.NonemptyIn) (hmatch : call.ValuesMatch d) :
    (holes r.sql).length = r.slots.length :=
  (length_holes_iff h).mpr ⟨fun n hn m hm => (hIn n hn m hm).dropsNothing, hmatch⟩

/-- The slots are those of the values in visiting order. Where no list of an `IN` is empty each
has its placeholder, and the `k`-th placeholder from left to right is that of the `k`-th slot
for all `k` iff no date addition on SQL Server has values on both sides. -/
theorem generate_inOrder_iff (h : generate d call = .ok r)
    (hIn : ∀ n ∈ call.trees, ∀ m ∈ n.visited, m.NonemptyIn) :
    (holes r.sql = List.range (holes r.sql).length ↔
      ∀ n ∈ call.trees, ∀ m ∈ n.visited, m.SwapsNothing d) ∧
    r.slots = call.slots ∧ (call.ValuesMatch d → (holes r.sql).length = r.slots.length) :=
  ⟨holes_inOrder_iff h hIn, (slots_generate h).1, length_holes_of_nonemptyIn h hIn⟩

/-- `(DATEADD(day, ?, [day]) < COALESCE(?, ?)) AND YEAR(DATEADD(day, ?, [day])) BETWEEN ? AND ?`,
of which two values are placeholders. -/
def datedTree : ExprNode :=
  .logic
    (.binary (.dateAdd (.columnRef ⟨"", "day"⟩) (.literal (.int64 7))) .lt
      (.function "COALESCE" [.paramPlaceholder 0, .literal (.string "2024-02-29")]))
    .and
    (.between (.extract .year (.dateAdd (.columnRef ⟨"", "day"⟩) (.paramPlaceholder 1)))
      (.literal (.int64 2020)) (.literal (.int64 2024)) false)

/-- Six values in order, on SQL Server. -/
theorem generate_inOrder_datedTree : ∃ r, generate .mssql (.expression datedTree) = .ok r ∧
    holes r.sql = List.range 6 ∧
    r.slots = [.static (.int64 7), .dynamic 0, .static (.string "2024-02-29"), .dynamic 1,
      .static (.int64 2020), .static (.int64 2024)] := by
  have hIn : ∀ n ∈ (GenerateCall.expression datedTree).trees, ∀ m ∈ n.visited, m.NonemptyIn := by
    simp only [GenerateCall.trees, List.forall_mem_singleton]
    simp [datedTree, ExprNode.visited_eq, ExprNode.children, ExprNode.NonemptyIn]
  refine ⟨_, rfl, ?_⟩
  obtain ⟨horder, hslots, hlength⟩ := generate_inOrder_iff rfl hIn
  have hswaps : ∀ n ∈ (GenerateCall.expression datedTree).trees, ∀ m ∈ n.visited,
      m.SwapsNothing .mssql := by
    simp only [GenerateCall.trees, List.forall_mem_singleton]
    simp [datedTree, ExprNode.visited_eq, ExprNode.children, ExprNode.SwapsNothing]
  have hsix : (GenerateCall.expression datedTree).slots = [.static (.int64 7), .dynamic 0,
      .static (.string "2024-02-29"), .dynamic 1, .static (.int64 2020),
      .static (.int64 2024)] := by
    simp [GenerateCall.slots, GenerateCall.trees, datedTree, ExprNode.leaves_eq,
      ExprNode.children, ExprNode.slot?]
  have hrange := horder.mpr hswaps
  rw [hlength trivial, hslots, hsix] at hrange
  exact ⟨hrange, hslots.trans hsix⟩

/-- Not every statement meets its placeholders in order. -/
theorem not_forall_generate_inOrder : ¬ ∀ (d : Dialect) (call : GenerateCall) (r : GeneratedSql),
    generate d call = .ok r → (∀ n ∈ call.trees, ∀ m ∈ n.visited, m.NonemptyIn) →
      holes r.sql = List.range (holes r.sql).length := by
  intro h
  have hholes := h .mssql
    (.expression (.dateAdd (.literal (.string "2024-01-01")) (.literal (.int64 7))))
    ⟨lit "DATEADD(day, " ++ [.hole 1] ++ lit ", " ++ [.hole 0] ++ lit ")",
      [.string "2024-01-01", .int64 7],
      [.static (.string "2024-01-01"), .static (.int64 7)]⟩ rfl (by
      simp only [GenerateCall.trees, List.forall_mem_singleton]
      simp [ExprNode.visited_eq, ExprNode.children, ExprNode.NonemptyIn])
  simp [List.range_succ] at hholes

end Statements

end CppLinq
