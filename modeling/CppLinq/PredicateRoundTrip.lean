import CppLinq.PredicateReading

/-!
# The text of a predicate means the tree

`NOT` is written with parentheses around its operand only and `IS NULL` with none at all,
so neither can stand where a primary is expected, and `NOT` not even to the left of a
comparison. The text gives the tree back exactly where all operands fit in this sense
(`meansTree_generateExpression_iff`).
-/

namespace CppLinq

/-! ## Operands that fit -/

namespace ExprNode

/-- The tree is a `NOT`. -/
def isNot : ExprNode → Bool
  | .unary .not _ => true
  | _ => false

/-- The tree is a null test. -/
def isNullTest : ExprNode → Bool
  | .unary .isNull _ | .unary .isNotNull _ => true
  | _ => false

/-- The tree can stand to the left of a comparison or of another predicate. -/
def FitsLeft (n : ExprNode) : Prop :=
  n.isNot = false

/-- The tree can stand where a primary is expected. -/
def FitsPrimary (n : ExprNode) : Prop :=
  n.isNot = false ∧ n.isNullTest = false

/-- The operands of the node can stand where they are written. Those of `AND`, of `OR`, of
`NOT` and of a list stand alone between parentheses, operators and commas. -/
def OperandsFit : ExprNode → Prop
  | .unary .not _ => True
  | .unary .isNull e | .unary .isNotNull e => e.FitsLeft
  | .binary left _ right => left.FitsLeft ∧ right.FitsPrimary
  | .between e low high _ => e.FitsLeft ∧ low.FitsPrimary ∧ high.FitsPrimary
  | .like e pattern _ => e.FitsLeft ∧ pattern.FitsPrimary
  | .inList e _ _ => e.FitsLeft
  | _ => True

variable {d : Dialect}

@[simp] theorem isNot_inDialect (n : ExprNode) : (n.inDialect d).isNot = n.isNot := by
  cases n with
  | unary op e => cases op <;> rfl
  | _ => rfl

@[simp] theorem isNullTest_inDialect (n : ExprNode) :
    (n.inDialect d).isNullTest = n.isNullTest := by
  cases n with
  | unary op e => cases op <;> rfl
  | _ => rfl

end ExprNode

theorem isNot_nullTest (isNot : Bool) (e : ExprNode) : (nullTest isNot e).isNot = false := by
  cases isNot <;> rfl

theorem isNullTest_nullTest (isNot : Bool) (e : ExprNode) :
    (nullTest isNot e).isNullTest = true := by
  cases isNot <;> rfl

/-- A null test tells which test it is, and of what. -/
theorem nullTest_injective {isNot : Bool} {e f : ExprNode}
    (h : nullTest isNot e = nullTest isNot f) : e = f := by
  cases isNot <;> injection h

namespace Spine

@[simp] theorem tree_ofPrim (e : ExprNode) : (ofPrim e).tree = e :=
  rfl

@[simp] theorem tree_group (s : Spine) : s.group.tree = s.tree :=
  rfl

theorem pred_append (neg : Bool) (e : ExprNode) (nulls : List Bool) (isNot : Bool) :
    pred ⟨neg, e, nulls ++ [isNot]⟩ = nullTest isNot (pred ⟨neg, e, nulls⟩) :=
  List.foldl_concat ..

/-- A tree that is no `NOT` has none in front. -/
theorem eq_of_tree_isNot {s : Spine} (h : s.tree.isNot = false) :
    s.neg = false ∧ s.pred = s.tree := by
  unfold tree at *
  cases hs : s.neg with
  | false => exact ⟨rfl, rfl⟩
  | true => simp [hs, ExprNode.isNot] at h

/-- A tree that is no `IS NULL` either is the primary. -/
theorem eq_of_pred_isNullTest {s : Spine} (h : s.pred.isNullTest = false) :
    s.nulls = [] ∧ s.prim = s.pred := by
  obtain ⟨neg, e, nulls⟩ := s
  rcases List.eq_nil_or_concat nulls with rfl | ⟨init, isNot, rfl⟩
  · exact ⟨rfl, rfl⟩
  · rw [List.concat_eq_append, pred_append, isNullTest_nullTest] at h
    contradiction

end Spine

/-! ## A text that is read back has operands that fit -/

section ReadsBack

variable {d : Dialect}

/-- The parser gives the tree back. -/
def ReadsBack (d : Dialect) (n : ExprNode) : Prop :=
  ∃ s, spine d n = some s ∧ s.tree = n.inDialect d

/-- A tree that is a `NOT` has a spine that begins with one. -/
theorem neg_of_isNot {n : ExprNode} {s : Spine} (h : spine d n = some s)
    (hn : n.isNot = true) : s.neg = true := by
  cases n with
  | unary op e =>
    cases op with
    | not =>
      rw [spine] at h
      cases he : spine d e <;> simp [he] at h
      rw [← h]
    | _ => contradiction
  | _ => contradiction

theorem nulls_of_isNullTest {n : ExprNode} {s : Spine} (h : spine d n = some s)
    (hn : n.isNullTest = true) : s.nulls ≠ [] := by
  have hnull : ∀ (isNot : Bool) (e : ExprNode), spine d (nullTest isNot e) = some s →
      s.nulls ≠ [] := by
    intro isNot e h
    rw [spine_nullTest] at h
    cases he : spine d e <;> simp [he] at h
    simp [← h]
  cases n with
  | unary op e =>
    cases op with
    | isNull => exact hnull false e h
    | isNotNull => exact hnull true e h
    | not => contradiction
  | _ => contradiction

/-- An operand to the left of a predicate. -/
theorem readsBack_left {n : ExprNode} {s : Spine} (h : spine d n = some s)
    (hneg : s.neg = false) (hpred : s.pred = n.inDialect d) : n.FitsLeft ∧ ReadsBack d n := by
  refine ⟨?_, s, h, ?_⟩
  · cases hn : n.isNot with
    | false => exact hn
    | true => exact absurd (neg_of_isNot h hn) (by simp [hneg])
  · rw [Spine.tree, hneg, if_neg Bool.false_ne_true, hpred]

/-- An operand where a primary is expected. -/
theorem readsBack_primary {n : ExprNode} {s : Spine} (h : spine d n = some s)
    (hneg : s.neg = false) (hnulls : s.nulls = []) (hprim : s.prim = n.inDialect d) :
    n.FitsPrimary ∧ ReadsBack d n := by
  have hpred : s.pred = n.inDialect d := by rw [Spine.pred, hnulls, List.foldl_nil, hprim]
  obtain ⟨hleft, hback⟩ := readsBack_left h hneg hpred
  refine ⟨⟨hleft, ?_⟩, hback⟩
  cases hn : n.isNullTest with
  | false => rfl
  | true => exact absurd hnulls (nulls_of_isNullTest h hn)

/-- A predicate that is neither `NOT` nor `IS NULL` between parentheses. -/
theorem spine_of_tree {s : Spine} {e : ExprNode} (h : s.tree = e) (he : e.FitsPrimary) :
    s.neg = false ∧ s.nulls = [] ∧ s.prim = e := by
  obtain ⟨hneg, hpred⟩ := Spine.eq_of_tree_isNot (h ▸ he.1)
  obtain ⟨hnulls, hprim⟩ := Spine.eq_of_pred_isNullTest (s := s) (by rw [hpred, h]; exact he.2)
  exact ⟨hneg, hnulls, by rw [hprim, hpred, h]⟩

/-- Operands of trees that read back, one lemma for each kind of node. -/
theorem operandsFit_binary {left right : ExprNode} {op : CompareOp}
    (h : ReadsBack d (.binary left op right)) :
    (left.FitsLeft ∧ right.FitsPrimary) ∧ ReadsBack d left ∧ ReadsBack d right := by
  obtain ⟨u, hu, htree⟩ := h
  simp only [spine, Option.bind_eq_bind, Option.bind_eq_some_iff, Option.ite_none_left_eq_some,
    Bool.not_eq_true, Option.some.injEq] at hu
  obtain ⟨s, hs, t, ht, htneg, rfl⟩ := hu
  rw [Spine.tree_group] at htree
  obtain ⟨hneg, hnulls, hprim⟩ := spine_of_tree htree ⟨rfl, rfl⟩
  simp only [ExprNode.inDialect, ExprNode.binary.injEq, true_and] at hprim
  obtain ⟨hl, hr⟩ := hprim
  have hleft := readsBack_left hs hneg hl
  have hright := readsBack_primary ht htneg hnulls hr
  exact ⟨⟨hleft.1, hright.1⟩, hleft.2, hright.2⟩

theorem operandsFit_logic {left right : ExprNode} {op : LogicOp}
    (h : ReadsBack d (.logic left op right)) : ReadsBack d left ∧ ReadsBack d right := by
  obtain ⟨u, hu, htree⟩ := h
  simp only [spine, Option.bind_eq_bind, Option.bind_eq_some_iff, Option.some.injEq] at hu
  obtain ⟨s, hs, t, ht, rfl⟩ := hu
  simp only [Spine.tree_ofPrim, ExprNode.inDialect, ExprNode.logic.injEq, true_and] at htree
  exact ⟨⟨s, hs, htree.1⟩, t, ht, htree.2⟩

theorem operandsFit_not {e : ExprNode} (h : ReadsBack d (.unary .not e)) : ReadsBack d e := by
  obtain ⟨u, hu, htree⟩ := h
  simp only [spine, Option.bind_eq_bind, Option.bind_eq_some_iff, Option.some.injEq] at hu
  obtain ⟨s, hs, rfl⟩ := hu
  injection htree with _ htree
  exact ⟨s, hs, htree⟩

theorem operandsFit_nullTest (isNot : Bool) {e : ExprNode} (h : ReadsBack d (nullTest isNot e)) :
    e.FitsLeft ∧ ReadsBack d e := by
  obtain ⟨u, hu, htree⟩ := h
  have hinDialect : (nullTest isNot e).inDialect d = nullTest isNot (e.inDialect d) := by
    cases isNot <;> rfl
  rw [hinDialect] at htree
  rw [spine_nullTest, Option.map_eq_some_iff] at hu
  obtain ⟨s, hs, rfl⟩ := hu
  obtain ⟨hneg, hpred⟩ := Spine.eq_of_tree_isNot (by rw [htree, isNot_nullTest])
  rw [htree, Spine.pred_append] at hpred
  exact readsBack_left hs hneg (nullTest_injective hpred)

theorem operandsFit_between {e low high : ExprNode} {isNot : Bool}
    (h : ReadsBack d (.between e low high isNot)) :
    (e.FitsLeft ∧ low.FitsPrimary ∧ high.FitsPrimary) ∧
      ReadsBack d e ∧ ReadsBack d low ∧ ReadsBack d high := by
  obtain ⟨v, hv, htree⟩ := h
  simp only [spine, Option.bind_eq_bind, Option.bind_eq_some_iff, Option.ite_none_left_eq_some,
    Option.some.injEq] at hv
  obtain ⟨s, hs, t, ht, u, hu, hfit, rfl⟩ := hv
  obtain ⟨⟨htneg, htnulls⟩, huneg⟩ : (t.neg = false ∧ t.nulls = []) ∧ u.neg = false := by
    simpa using hfit
  rw [Spine.tree_group] at htree
  obtain ⟨hneg, hnulls, hprim⟩ := spine_of_tree htree ⟨rfl, rfl⟩
  simp only [ExprNode.inDialect, ExprNode.between.injEq, and_true] at hprim
  obtain ⟨he, hlow, hhigh⟩ := hprim
  have hle := readsBack_left hs hneg he
  have hl := readsBack_primary ht htneg htnulls hlow
  have hh := readsBack_primary hu huneg hnulls hhigh
  exact ⟨⟨hle.1, hl.1, hh.1⟩, hle.2, hl.2, hh.2⟩

theorem operandsFit_like {e pattern : ExprNode} {isNot : Bool}
    (h : ReadsBack d (.like e pattern isNot)) :
    (e.FitsLeft ∧ pattern.FitsPrimary) ∧ ReadsBack d e ∧ ReadsBack d pattern := by
  obtain ⟨u, hu, htree⟩ := h
  simp only [spine, Option.bind_eq_bind, Option.bind_eq_some_iff, Option.ite_none_left_eq_some,
    Bool.not_eq_true, Option.some.injEq] at hu
  obtain ⟨s, hs, t, ht, htneg, rfl⟩ := hu
  rw [Spine.tree_group] at htree
  obtain ⟨hneg, hnulls, hprim⟩ := spine_of_tree htree ⟨rfl, rfl⟩
  simp only [ExprNode.inDialect, ExprNode.like.injEq, and_true] at hprim
  obtain ⟨he, hp⟩ := hprim
  have hle := readsBack_left hs hneg he
  have hright := readsBack_primary ht htneg hnulls hp
  exact ⟨⟨hle.1, hright.1⟩, hle.2, hright.2⟩

/-- Trees of a list that reads back read back themselves. -/
theorem readsBack_of_spineList : ∀ {ns ts : List ExprNode}, spineList d ns = some ts →
    ts = ExprNode.inDialectList d ns → ∀ n ∈ ns, ReadsBack d n
  | [], _, _, _, n, hn => by contradiction
  | m :: ns, ts, h, hts, n, hn => by
    simp only [spineList_cons, Option.bind_eq_some_iff, Option.some.injEq] at h
    obtain ⟨s, hs, us, hus, rfl⟩ := h
    rw [ExprNode.inDialectList, List.cons.injEq] at hts
    rcases List.mem_cons.mp hn with rfl | hn
    · exact ⟨s, hs, hts.1⟩
    · exact readsBack_of_spineList hus hts.2 n hn

theorem operandsFit_inList {e : ExprNode} {vs : List ExprNode} {isNot : Bool}
    (h : ReadsBack d (.inList e vs isNot)) :
    e.FitsLeft ∧ ReadsBack d e ∧ ∀ v ∈ vs, ReadsBack d v := by
  obtain ⟨u, hu, htree⟩ := h
  simp only [spine, Option.bind_eq_bind, Option.bind_eq_some_iff, Option.some.injEq] at hu
  obtain ⟨s, hs, ts, hts, rfl⟩ := hu
  rw [Spine.tree_group] at htree
  obtain ⟨hneg, -, hprim⟩ := spine_of_tree htree ⟨rfl, rfl⟩
  simp only [ExprNode.inDialect, ExprNode.inList.injEq, and_true] at hprim
  have hle := readsBack_left hs hneg hprim.1
  exact ⟨hle.1, hle.2, readsBack_of_spineList hts hprim.2⟩

theorem operandsFit_function {f : String} {args : List ExprNode}
    (h : ReadsBack d (.function f args)) : ∀ n ∈ args, ReadsBack d n := by
  obtain ⟨u, hu, htree⟩ := h
  simp only [spine, Option.bind_eq_bind, Option.bind_eq_some_iff, Option.some.injEq] at hu
  obtain ⟨ts, hts, rfl⟩ := hu
  simp only [Spine.tree_ofPrim, ExprNode.inDialect, ExprNode.function.injEq, true_and] at htree
  exact readsBack_of_spineList hts htree

/-- The operands of a node that is read back. -/
theorem operandsFit_of_readsBack {n : ExprNode} (h : ReadsBack d n) :
    n.OperandsFit ∧ ∀ c ∈ n.children, ReadsBack d c := by
  cases n with
  | binary l op r => simpa [ExprNode.children, ExprNode.OperandsFit] using operandsFit_binary h
  | logic l op r => simpa [ExprNode.children, ExprNode.OperandsFit] using operandsFit_logic h
  | unary op e =>
    cases op with
    | not => simpa [ExprNode.children, ExprNode.OperandsFit] using operandsFit_not h
    | isNull =>
      simpa [ExprNode.children, ExprNode.OperandsFit] using operandsFit_nullTest false h
    | isNotNull =>
      simpa [ExprNode.children, ExprNode.OperandsFit] using operandsFit_nullTest true h
  | between e low high isNot =>
    simpa [ExprNode.children, ExprNode.OperandsFit] using operandsFit_between h
  | like e p isNot => simpa [ExprNode.children, ExprNode.OperandsFit] using operandsFit_like h
  | inList e vs isNot =>
    simpa [ExprNode.children, ExprNode.OperandsFit] using operandsFit_inList h
  | function f args =>
    simpa [ExprNode.children, ExprNode.OperandsFit] using operandsFit_function h
  | columnRef ref => simp [ExprNode.children, ExprNode.OperandsFit]
  | literal v => simp [ExprNode.children, ExprNode.OperandsFit]
  | paramPlaceholder i => simp [ExprNode.children, ExprNode.OperandsFit]
  -- no text of another node is read
  | _ =>
    obtain ⟨s, hs, -⟩ := h
    simp [spine] at hs

end ReadsBack

/-- The operands of all nodes of a tree that is read back. -/
theorem forall_operandsFit {d : Dialect} {n : ExprNode} (h : ReadsBack d n) :
    ∀ m ∈ n.visited, m.OperandsFit := by
  induction n using ExprNode.children_induction with
  | step n ih =>
    obtain ⟨hn, hc⟩ := operandsFit_of_readsBack h
    exact ExprNode.forall_mem_visited.mpr ⟨hn, fun c hmem => ih c hmem (hc c hmem)⟩

/-! ## A text whose operands fit is derived from the grammar -/

section Derived

variable {d : Dialect} {slots : List ParameterSlot}

/-- The rank of the text of a tree. -/
def ExprNode.rank (n : ExprNode) : Rank :=
  if n.isNot then .neg else if n.isNullTest then .pred else .prim

/-- The grammar derives the tree from its tokens. -/
def Derived (d : Dialect) (slots : List ParameterSlot) (n : ExprNode) : Prop :=
  ∀ k, n.leaves <+: slots.drop k →
    Derives (predicateNodes slots) n.rank (tokens d n k) [n.inDialect d]

namespace Derived

variable {n : ExprNode} {k : ℕ}

theorem prim (h : Derived d slots n) (hk : n.leaves <+: slots.drop k) (hn : n.FitsPrimary) :
    Derives (predicateNodes slots) .prim (tokens d n k) [n.inDialect d] := by
  have hrank : n.rank = .prim := by
    rw [ExprNode.rank, hn.1, hn.2]
    rfl
  exact hrank ▸ h k hk

theorem pred (h : Derived d slots n) (hk : n.leaves <+: slots.drop k) (hn : n.FitsLeft) :
    Derives (predicateNodes slots) .pred (tokens d n k) [n.inDialect d] := by
  cases hnull : n.isNullTest with
  | false => exact .pred (h.prim hk ⟨hn, hnull⟩)
  | true =>
    have hrank : n.rank = .pred := by
      rw [ExprNode.rank, hn, hnull]
      rfl
    exact hrank ▸ h k hk

theorem neg (h : Derived d slots n) (hk : n.leaves <+: slots.drop k) :
    Derives (predicateNodes slots) .neg (tokens d n k) [n.inDialect d] := by
  cases hn : n.isNot with
  | false => exact .neg (h.pred hk hn)
  | true =>
    have hrank : n.rank = .neg := by
      rw [ExprNode.rank, hn]
      rfl
    exact hrank ▸ h k hk

theorem disj (h : Derived d slots n) (hk : n.leaves <+: slots.drop k) :
    Derives (predicateNodes slots) .disj (tokens d n k) [n.inDialect d] :=
  .disj (.conj (h.neg hk))

end Derived

/-- A tree that is written in parentheses. -/
theorem derived_of_group {n : ExprNode} {t : ℕ → List Token}
    (htokens : ∀ k, tokens d n k = .lparen :: (t k ++ [.rparen])) (hn : n.FitsPrimary)
    (h : ∀ k, n.leaves <+: slots.drop k →
      Derives (predicateNodes slots) .disj (t k) [n.inDialect d]) : Derived d slots n := by
  intro k hk
  rw [ExprNode.rank, hn.1, hn.2, htokens]
  exact .group (h k hk)

theorem derived_binary {left right : ExprNode} (op : CompareOp) (hl : Derived d slots left)
    (hr : Derived d slots right) (hfit : left.FitsLeft ∧ right.FitsPrimary) :
    Derived d slots (.binary left op right) := by
  refine derived_of_group (t := fun k => tokens d left k ++ .op op.comparison ::
    tokens d right (k + left.leaves.length)) (fun k => by simp [tokens]) ⟨rfl, rfl⟩ ?_
  intro k hk
  rw [ExprNode.leaves_binary] at hk
  obtain ⟨hkl, hkr⟩ := prefix_drop_append hk
  have hcmp : (predicateNodes slots).cmp (left.inDialect d) op.comparison (right.inDialect d) =
      (ExprNode.binary left op right).inDialect d := by
    cases op <;> rfl
  exact hcmp ▸ .disj (.conj (.neg (.cmp (hl.pred hkl hfit.1) (hr.prim hkr hfit.2))))

theorem derived_logic {left right : ExprNode} (op : LogicOp) (hl : Derived d slots left)
    (hr : Derived d slots right) : Derived d slots (.logic left op right) := by
  refine derived_of_group (t := fun k => tokens d left k ++ op.token ::
    tokens d right (k + left.leaves.length)) (fun k => by simp [tokens]) ⟨rfl, rfl⟩ ?_
  intro k hk
  rw [ExprNode.leaves_logic] at hk
  obtain ⟨hkl, hkr⟩ := prefix_drop_append hk
  cases op with
  | and => exact .disj (.and (.conj (hl.neg hkl)) (hr.neg hkr))
  | or => exact .or (hl.disj hkl) (.conj (hr.neg hkr))

theorem derived_not {e : ExprNode} (he : Derived d slots e) : Derived d slots (.unary .not e) := by
  intro k hk
  rw [ExprNode.leaves_unary] at hk
  exact .not (.neg (.pred (.group (he.disj hk))))

theorem derived_nullTest (isNot : Bool) {e : ExprNode} (he : Derived d slots e)
    (hfit : e.FitsLeft) : Derived d slots (nullTest isNot e) := by
  intro k hk
  rw [nullTest, ExprNode.leaves_unary] at hk
  have h := Derives.isNull isNot (he.pred hk hfit)
  cases isNot <;> exact h

theorem derived_between {e low high : ExprNode} (isNot : Bool) (he : Derived d slots e)
    (hlow : Derived d slots low) (hhigh : Derived d slots high)
    (hfit : e.FitsLeft ∧ low.FitsPrimary ∧ high.FitsPrimary) :
    Derived d slots (.between e low high isNot) := by
  refine derived_of_group (t := fun k => tokens d e k ++ (notIf isNot ++ .between ::
    (tokens d low (k + e.leaves.length) ++ .and ::
      tokens d high (k + e.leaves.length + low.leaves.length))))
    (fun k => by simp [tokens]) ⟨rfl, rfl⟩ ?_
  intro k hk
  rw [ExprNode.leaves_between] at hk
  obtain ⟨hke, hk⟩ := prefix_drop_append hk
  obtain ⟨hkl, hkh⟩ := prefix_drop_append hk
  exact .disj (.conj (.neg (.between isNot (he.pred hke hfit.1) (hlow.prim hkl hfit.2.1)
    (hhigh.prim hkh hfit.2.2))))

theorem derived_like {e pattern : ExprNode} (isNot : Bool) (he : Derived d slots e)
    (hp : Derived d slots pattern) (hfit : e.FitsLeft ∧ pattern.FitsPrimary) :
    Derived d slots (.like e pattern isNot) := by
  refine derived_of_group (t := fun k => tokens d e k ++ (notIf isNot ++ .like ::
    tokens d pattern (k + e.leaves.length))) (fun k => by simp [tokens]) ⟨rfl, rfl⟩ ?_
  intro k hk
  rw [ExprNode.leaves_like] at hk
  obtain ⟨hke, hkp⟩ := prefix_drop_append hk
  exact .disj (.conj (.neg (.like isNot (he.pred hke hfit.1) (hp.prim hkp hfit.2))))

/-- Items and more items after them. -/
theorem derives_items {us : List Token} {as : List ExprNode} :
    ∀ {ns : List ExprNode} {k : ℕ}, ns ≠ [] → (∀ n ∈ ns, Derived d slots n) →
    ns.flatMap ExprNode.leaves <+: slots.drop k → Derives (predicateNodes slots) .items us as →
    Derives (predicateNodes slots) .items (us ++ .comma :: tokensList d ns k)
      (as ++ ExprNode.inDialectList d ns)
  | [], _, h, _, _, _ => by contradiction
  | [n], k, _, hns, hk, h => by
    rw [List.flatMap_singleton] at hk
    exact .items h ((hns n List.mem_cons_self).disj hk)
  | n :: m :: ns, k, _, hns, hk, h => by
    rw [List.flatMap_cons] at hk
    obtain ⟨hkn, hk⟩ := prefix_drop_append hk
    have hrest := derives_items (List.cons_ne_nil m ns) (fun o ho => hns o (by simp [ho])) hk
      (.items h ((hns n List.mem_cons_self).disj hkn))
    simpa [tokensList, ExprNode.inDialectList] using hrest

/-- Trees with commas are derived as items. -/
theorem derives_tokensList {ns : List ExprNode} {k : ℕ} (hne : ns ≠ [])
    (hns : ∀ n ∈ ns, Derived d slots n) (hk : ns.flatMap ExprNode.leaves <+: slots.drop k) :
    Derives (predicateNodes slots) .items (tokensList d ns k) (ExprNode.inDialectList d ns) := by
  cases ns with
  | nil => contradiction
  | cons n ns =>
    rw [List.flatMap_cons] at hk
    obtain ⟨hkn, hk⟩ := prefix_drop_append hk
    have hitem := Derives.item ((hns n List.mem_cons_self).disj hkn)
    cases ns with
    | nil => exact hitem
    | cons m ns =>
      exact derives_items (List.cons_ne_nil m ns) (fun o ho => hns o (by simp [ho])) hk hitem

theorem derived_inList {e : ExprNode} {vs : List ExprNode} (isNot : Bool) (hvs : vs ≠ [])
    (he : Derived d slots e) (h : ∀ v ∈ vs, Derived d slots v) (hfit : e.FitsLeft) :
    Derived d slots (.inList e vs isNot) := by
  refine derived_of_group (t := fun k => tokens d e k ++ (notIf isNot ++ .in_ :: .lparen ::
    (tokensList d vs (k + e.leaves.length) ++ [.rparen]))) (fun k => by simp [tokens])
    ⟨rfl, rfl⟩ ?_
  intro k hk
  rw [ExprNode.leaves_inList] at hk
  obtain ⟨hke, hkv⟩ := prefix_drop_append hk
  exact .disj (.conj (.neg (.inList isNot (he.pred hke hfit) (derives_tokensList hvs h hkv))))

theorem derived_function {f : String} {args : List ExprNode}
    (h : ∀ n ∈ args, Derived d slots n) : Derived d slots (.function f args) := by
  intro k hk
  rw [ExprNode.leaves_function] at hk
  cases args with
  | nil => exact .callEmpty (d.functionName f)
  | cons n ns =>
    exact .call (d.functionName f) (derives_tokensList (List.cons_ne_nil n ns) h hk)

/-- A value is derived from its placeholder. -/
theorem derived_value {n : ExprNode} {s : ParameterSlot} (hs : n.slot? = some s)
    (hn : s.node = n) : Derived d slots n := by
  intro k hk
  have hparam := param_of_value hs hn hk
  cases n with
  | literal v => exact .param hparam
  | paramPlaceholder i => exact .param hparam
  | _ => simp [ExprNode.slot?] at hs

/-- Where all operands fit, the grammar derives the tree. -/
theorem derived_of_operandsFit {n : ExprNode} (h : ∀ m ∈ n.visited, m.IsPredicateNode d)
    (hfit : ∀ m ∈ n.visited, m.OperandsFit) : Derived d slots n := by
  induction n using ExprNode.children_induction with
  | step n ih =>
    rw [ExprNode.forall_mem_visited] at h hfit
    obtain ⟨hn, hc⟩ := h
    obtain ⟨hnfit, hcfit⟩ := hfit
    have hp : ∀ m ∈ n.children, Derived d slots m :=
      fun m hm => ih m hm (hc m hm) (hcfit m hm)
    cases n with
    | columnRef ref => exact fun k _ => .column ref.tableName ref.columnName
    | literal v => exact derived_value rfl rfl
    | paramPlaceholder i => exact derived_value rfl rfl
    | binary l op r =>
      exact derived_binary op (hp l (by simp [ExprNode.children]))
        (hp r (by simp [ExprNode.children])) hnfit
    | logic l op r =>
      exact derived_logic op (hp l (by simp [ExprNode.children]))
        (hp r (by simp [ExprNode.children]))
    | unary op e =>
      have he := hp e (by simp [ExprNode.children])
      cases op with
      | not => exact derived_not he
      | isNull => exact derived_nullTest false he hnfit
      | isNotNull => exact derived_nullTest true he hnfit
    | between e low high isNot =>
      exact derived_between isNot (hp e (by simp [ExprNode.children]))
        (hp low (by simp [ExprNode.children])) (hp high (by simp [ExprNode.children])) hnfit
    | like e p isNot =>
      exact derived_like isNot (hp e (by simp [ExprNode.children]))
        (hp p (by simp [ExprNode.children])) hnfit
    | inList e vs isNot =>
      exact derived_inList isNot hn (hp e List.mem_cons_self)
        (fun v hv => hp v (List.mem_cons_of_mem e hv)) hnfit
    | function f args => exact derived_function hp
    | _ => exact hn.elim

end Derived

/-! ## The round trip -/

/-- The text splits into tokens, and the grammar reads them as the tree. -/
def MeansTree (d : Dialect) (n : ExprNode) : Prop :=
  ∃ ts, lex d.quotes (d.write (generateExpression d n).sql) = some ts ∧
    Derives (predicateNodes (generateExpression d n).slots) .disj ts [n.inDialect d]

theorem slots_generateExpression (d : Dialect) (n : ExprNode) :
    (generateExpression d n).slots = n.leaves := by
  change (visit d n (.start 0)).2.slots = n.leaves
  rw [visit_snd]
  rfl

/-- A text that means its tree has operands that fit. -/
theorem operandsFit_of_meansTree {d : Dialect} {n : ExprNode}
    (h : ∀ m ∈ n.visited, m.IsPredicateNode d) (hn : MeansTree d n) :
    ∀ m ∈ n.visited, m.OperandsFit := by
  obtain ⟨ts, hts, hder⟩ := hn
  rw [lex_generateExpression h] at hts
  injection hts with hts
  subst hts
  rw [slots_generateExpression] at hder
  have hparse := parse_of_derives hder
  rw [parse_tokens h, Option.map_eq_some_iff] at hparse
  exact forall_operandsFit hparse

/-- The generated text of a predicate means the tree exactly when the operands of all its
nodes can stand where they are written. -/
theorem meansTree_generateExpression_iff (d : Dialect) (n : ExprNode)
    (h : ∀ m ∈ n.visited, m.IsPredicateNode d) :
    MeansTree d n ↔ ∀ m ∈ n.visited, m.OperandsFit := by
  refine ⟨operandsFit_of_meansTree h, fun hfit => ?_⟩
  rw [MeansTree, slots_generateExpression, lex_generateExpression h]
  exact ⟨_, rfl, (derived_of_operandsFit h hfit).disj (k := 0) (List.prefix_refl _)⟩

/-- `NOT` above a comparison of a `LIKE` with a value. -/
theorem meansTree_not_eq : MeansTree .postgres (.unary .not
    (.binary (.like (.columnRef ⟨"t", "a"⟩) (.literal (.string "x%")) true) .eq
      (.paramPlaceholder 0))) := by
  refine (meansTree_generateExpression_iff _ _ ?_).mpr ?_
  · simp [ExprNode.visited_eq, ExprNode.children, ExprNode.IsPredicateNode]
  · simp [ExprNode.visited_eq, ExprNode.children, ExprNode.OperandsFit, ExprNode.FitsLeft,
      ExprNode.FitsPrimary, ExprNode.isNot, ExprNode.isNullTest]

/-- `a = (b IS NULL)` is written `("a" = "b" IS NULL)`. -/
theorem not_forall_meansTree : ¬ ∀ (d : Dialect) (n : ExprNode),
    (∀ m ∈ n.visited, m.IsPredicateNode d) → MeansTree d n := by
  intro h
  have hn : ∀ m ∈ (ExprNode.binary (.columnRef ⟨"", "a"⟩) .eq
      (.unary .isNull (.columnRef ⟨"", "b"⟩))).visited, m.IsPredicateNode .sqlite := by
    simp [ExprNode.visited_eq, ExprNode.children, ExprNode.IsPredicateNode]
  have hfit := operandsFit_of_meansTree hn (h _ _ hn)
  simp [ExprNode.visited_eq, ExprNode.children, ExprNode.OperandsFit, ExprNode.FitsLeft,
    ExprNode.FitsPrimary, ExprNode.isNot, ExprNode.isNullTest] at hfit

/-- The functions that the methods of `Expr` call. -/
def exprFunctions : List String :=
  ["LOWER", "UPPER", "LENGTH", "TRIM", "SUBSTR", "ABS", "ROUND", "COALESCE"]

/-- A call of a method of `Expr` is a predicate node. -/
theorem isPredicateNode_function (d : Dialect) {f : String} (hf : f ∈ exprFunctions)
    (args : List ExprNode) : (ExprNode.function f args).IsPredicateNode d := by
  simp only [exprFunctions, List.mem_cons, List.not_mem_nil, or_false] at hf
  rcases hf with rfl | rfl | rfl | rfl | rfl | rfl | rfl | rfl <;> cases d <;>
    exact ⟨by decide, List.all_eq_true.mp (by decide), by decide⟩

end CppLinq
