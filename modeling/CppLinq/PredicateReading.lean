import CppLinq.PredicateText

/-!
# The reading of a predicate

What the parser of `SqlGrammar` makes of the text of a predicate, for every tree
(`spine`, `parse_tokens`) : a `NOT` moves out to the nearest parenthesis, an `IS NULL`
applies to all that stands before it, or the text is no predicate.
-/

namespace CppLinq

open ParseState

/-! ## Trees as the grammar builds them -/

/-- The node that recorded a slot. -/
def ParameterSlot.node : ParameterSlot → ExprNode
  | .dynamic i => .paramPlaceholder i
  | .static v => .literal v

/-- `IS NULL` or `IS NOT NULL`. -/
def nullTest (isNot : Bool) (e : ExprNode) : ExprNode :=
  .unary (if isNot then .isNotNull else .isNull) e

/-- Predicates as nodes, the parameters being the values of `slots`. -/
def predicateNodes (slots : List ParameterSlot) : Predicates ExprNode where
  column table name := .columnRef ⟨table, name⟩
  param k := slots[k]?.map ParameterSlot.node
  call f args := .function f args
  cmp a o b := .binary a o.compareOp b
  or a b := .logic a .or b
  and a b := .logic a .and b
  not a := .unary .not a
  isNull isNot a := nullTest isNot a
  between isNot e low high := .between e low high isNot
  like isNot e pattern := .like e pattern isNot
  inList isNot e values := .inList e values isNot

/-! ## What the parser makes of a tree -/

/-- A text as the parser sees it : a `NOT` or none, a primary, and `IS NULL`s after it. -/
structure Spine where
  neg : Bool
  prim : ExprNode
  nulls : List Bool

namespace Spine

/-- The predicate without the `NOT`. -/
def pred (s : Spine) : ExprNode :=
  s.nulls.foldl (fun e isNot => nullTest isNot e) s.prim

/-- The tree of a spine. -/
def tree (s : Spine) : ExprNode :=
  if s.neg then .unary .not s.pred else s.pred

/-- A primary alone. -/
def ofPrim (e : ExprNode) : Spine :=
  ⟨false, e, []⟩

/-- The level after the text. -/
def level (s : Spine) : Level ExprNode :=
  ⟨none, none, s.neg.toNat, .done s.pred⟩

/-- The text between parentheses. -/
def group (s : Spine) : Spine :=
  ofPrim s.tree

end Spine

mutual

/-- What the parser makes of the text of a tree. -/
def spine (d : Dialect) : ExprNode → Option Spine
  | .columnRef ref => some (.ofPrim (.columnRef ref))
  | .literal v => some (.ofPrim (.literal v))
  | .paramPlaceholder i => some (.ofPrim (.paramPlaceholder i))
  | .binary left op right => do
    let s ← spine d left
    let t ← spine d right
    -- no `NOT` after the operator
    if t.neg then none else some (Spine.group ⟨s.neg, .binary s.pred op t.prim, t.nulls⟩)
  | .logic left op right => do
    let s ← spine d left
    let t ← spine d right
    some (.ofPrim (.logic s.tree op t.tree))
  | .unary .not operand => do
    let s ← spine d operand
    some ⟨true, s.tree, []⟩
  | .unary .isNull operand => do
    let s ← spine d operand
    some { s with nulls := s.nulls ++ [false] }
  | .unary .isNotNull operand => do
    let s ← spine d operand
    some { s with nulls := s.nulls ++ [true] }
  | .between expr low high isNot => do
    let s ← spine d expr
    let t ← spine d low
    let u ← spine d high
    -- nothing but a primary before the `AND`
    if t.neg || !t.nulls.isEmpty || u.neg then none
    else some (Spine.group ⟨s.neg, .between s.pred t.prim u.prim isNot, u.nulls⟩)
  | .like expr pattern isNot => do
    let s ← spine d expr
    let t ← spine d pattern
    if t.neg then none else some (Spine.group ⟨s.neg, .like s.pred t.prim isNot, t.nulls⟩)
  | .inList expr values isNot => do
    let s ← spine d expr
    let ts ← spineList d values
    some (Spine.group ⟨s.neg, .inList s.pred ts isNot, []⟩)
  | .function functionName arguments => do
    let ts ← spineList d arguments
    some (.ofPrim (.function (d.functionName functionName) ts))
  | _ => none
termination_by structural n => n

/-- What the parser makes of trees separated by commas. -/
def spineList (d : Dialect) : List ExprNode → Option (List ExprNode)
  | [] => some []
  | n :: ns => do
    let s ← spine d n
    let ts ← spineList d ns
    some (s.tree :: ts)
termination_by structural ns => ns

end

/-- A level after `IS NULL` or `IS NOT NULL`. -/
def Level.nullStep (l : Level ExprNode) (isNot : Bool) : Option (Level ExprNode) :=
  match l.pred with
  | .done e => some { l with pred := .done (nullTest isNot e) }
  | _ => none

/-- A level after a text. -/
def Level.feedSpine (l : Level ExprNode) (s : Spine) : Option (Level ExprNode) :=
  if s.neg then
    match l.pred with
    | .empty => some { l with nots := l.nots + 1, pred := .done s.pred }
    | _ => none
  else (l.feed s.prim).bind fun l => s.nulls.foldlM Level.nullStep l

/-- The first operand of an `OR`, for the level of the second. -/
def LogicOp.disj : LogicOp → ExprNode → Option ExprNode
  | .or, e => some e
  | .and, _ => none

/-- The first operand of an `AND`, for the level of the second. -/
def LogicOp.conj : LogicOp → ExprNode → Option ExprNode
  | .and, e => some e
  | .or, _ => none

/-- The level waits for a primary. -/
def Level.Waits {ε : Type} (l : Level ε) : Prop :=
  ∀ e, (l.feed e).isSome

section Levels

variable {disj conj : Option ExprNode} {nots : ℕ}

theorem waits_empty {ε : Type} (disj conj : Option ε) (nots : ℕ) :
    (⟨disj, conj, nots, .empty⟩ : Level ε).Waits :=
  fun _ => rfl

theorem waits_operand {ε : Type} (disj conj : Option ε) (nots : ℕ) (k : ε → ε) :
    (⟨disj, conj, nots, .operand k⟩ : Level ε).Waits :=
  fun _ => rfl

theorem waits_lowBound {ε : Type} (disj conj : Option ε) (nots : ℕ) (k : ε → ε → ε) :
    (⟨disj, conj, nots, .lowBound k⟩ : Level ε).Waits :=
  fun _ => rfl

/-- Null tests behind an operand are read one after another. -/
theorem foldlM_nullStep (nulls : List Bool) (e : ExprNode) :
    nulls.foldlM Level.nullStep ⟨disj, conj, nots, .done e⟩ =
      some ⟨disj, conj, nots, .done (nulls.foldl (fun e isNot => nullTest isNot e) e)⟩ := by
  induction nulls generalizing e with
  | nil => rfl
  | cons b nulls ih => exact ih (nullTest b e)

/-- What a level does with a spine, by what it waits for. -/
theorem feedSpine_empty (s : Spine) :
    (⟨disj, conj, nots, .empty⟩ : Level ExprNode).feedSpine s =
      some ⟨disj, conj, nots + s.neg.toNat, .done s.pred⟩ := by
  unfold Level.feedSpine
  cases hs : s.neg with
  | false => exact foldlM_nullStep s.nulls s.prim
  | true => rfl

theorem feedSpine_operand (k : ExprNode → ExprNode) (s : Spine) :
    (⟨disj, conj, nots, .operand k⟩ : Level ExprNode).feedSpine s = if s.neg then none
      else some ⟨disj, conj, nots, .done (Spine.pred ⟨false, k s.prim, s.nulls⟩)⟩ := by
  unfold Level.feedSpine
  cases hs : s.neg with
  | false => exact foldlM_nullStep s.nulls (k s.prim)
  | true => rfl

theorem feedSpine_lowBound (k : ExprNode → ExprNode → ExprNode) (s : Spine) :
    (⟨disj, conj, nots, .lowBound k⟩ : Level ExprNode).feedSpine s =
      if s.neg || !s.nulls.isEmpty then none
      else some ⟨disj, conj, nots, .andBound (k s.prim)⟩ := by
  obtain ⟨neg, prim, nulls⟩ := s
  cases neg with
  | true => rfl
  | false => cases nulls <;> rfl

theorem feedSpine_ofPrim (l : Level ExprNode) (e : ExprNode) :
    l.feedSpine (.ofPrim e) = l.feed e := by
  simp [Level.feedSpine, Spine.ofPrim]

theorem feedSpine_nulls (l : Level ExprNode) (s : Spine) (isNot : Bool) :
    l.feedSpine { s with nulls := s.nulls ++ [isNot] } =
      (l.feedSpine s).bind (Level.nullStep · isNot) := by
  obtain ⟨disj, conj, nots, pred⟩ := l
  unfold Level.feedSpine
  cases hs : s.neg with
  | false =>
    simp only [Bool.false_eq_true, if_false, List.foldlM_append, Option.bind_assoc]
    refine congrArg _ (funext fun l => congrArg _ (funext fun m => ?_))
    exact bind_pure _
  | true =>
    cases pred with
    | empty => simp [Level.nullStep, Spine.pred]
    | _ => rfl

variable {slots : List ParameterSlot}

/-- A level that holds a spine closes with its tree. -/
theorem close_level (s : Spine) : s.level.close (predicateNodes slots) = some s.tree := by
  unfold Spine.tree Spine.level
  cases s.neg <;> rfl

theorem conjunct_level (s : Spine) : s.level.conjunct (predicateNodes slots) = some s.tree := by
  unfold Spine.tree Spine.level
  cases s.neg <;> rfl

theorem close_after_logic (op : LogicOp) (e : ExprNode) (t : Spine) :
    Level.close (predicateNodes slots)
      ⟨op.disj e, op.conj e, 0 + t.neg.toNat, .done t.pred⟩ = some (.logic e op t.tree) := by
  unfold Spine.tree
  cases op <;> cases t.neg <;> rfl

/-- Reading `IS NULL` or `IS NOT NULL`. -/
theorem run_nullStep (l : Level ExprNode) (S : List (Frame ExprNode)) (isNot : Bool) :
    run (predicateNodes slots) ⟨l, S⟩ (.is :: (notIf isNot ++ [.null])) =
      (l.nullStep isNot).map (⟨·, S⟩) := by
  obtain ⟨disj, conj, nots, pred⟩ := l
  cases isNot <;> cases pred <;> rfl

/-- Reading a group, from what its content leads to. -/
theorem run_group {l : Level ExprNode} (hl : l.Waits) {S : List (Frame ExprNode)}
    {ts : List Token} {o : Option (Level ExprNode)}
    (h : run (predicateNodes slots) ⟨.fresh, .group l :: S⟩ ts = o.map (⟨·, .group l :: S⟩)) :
    run (predicateNodes slots) ⟨l, S⟩ (.lparen :: (ts ++ [.rparen])) =
      (o.bind fun m => (m.close (predicateNodes slots)).bind l.feed).map (⟨·, S⟩) := by
  obtain ⟨l', hl'⟩ := Option.isSome_iff_exists.mp (hl .currentDate)
  rw [run_cons, step_lparen hl', Option.bind_some, run_append, h]
  cases o with
  | none => rfl
  | some m =>
    have hclose : step (predicateNodes slots) ⟨m, .group l :: S⟩ .rparen =
      (m.close (predicateNodes slots)).bind fun e => (l.feed e).map (⟨·, S⟩) := rfl
    rw [Option.map_some, Option.bind_some, Option.bind_some, run_cons, hclose]
    cases m.close (predicateNodes slots) with
    | none => rfl
    | some e =>
      rw [Option.bind_some, Option.bind_some]
      cases l.feed e <;> rfl

end Levels

/-! ## Reading the tokens of a tree -/

section Reading

variable {d : Dialect} {slots : List ParameterSlot}

/-- The tokens of the tree lead the parser to its spine. -/
def Parses (d : Dialect) (slots : List ParameterSlot) (n : ExprNode) : Prop :=
  ∀ (k : ℕ) (l : Level ExprNode) (S : List (Frame ExprNode)),
    n.leaves <+: slots.drop k → l.Waits →
    run (predicateNodes slots) ⟨l, S⟩ (tokens d n k) =
      ((spine d n).bind l.feedSpine).map (⟨·, S⟩)

/-- The values of two trees, one after the other. -/
theorem prefix_drop_append {as bs : List ParameterSlot} {k : ℕ}
    (h : as ++ bs <+: slots.drop k) :
    as <+: slots.drop k ∧ bs <+: slots.drop (k + as.length) := by
  obtain ⟨cs, hcs⟩ := h
  refine ⟨⟨bs ++ cs, by rw [← hcs, List.append_assoc]⟩, ⟨cs, ?_⟩⟩
  rw [← List.drop_drop, ← hcs, List.append_assoc, List.drop_left]

/-- A tree at the start of a level, and what stands after it. -/
theorem Parses.fresh_append {n : ExprNode} (h : Parses d slots n) {k : ℕ}
    (hk : n.leaves <+: slots.drop k) {S : List (Frame ExprNode)} {u : List Token} {β : Type}
    {f : Spine → Option β} {g : β → ParseState ExprNode}
    (hu : ∀ s : Spine, run (predicateNodes slots) ⟨s.level, S⟩ u = (f s).map g) :
    run (predicateNodes slots) ⟨.fresh, S⟩ (tokens d n k ++ u) =
      ((spine d n).bind f).map g := by
  rw [run_append, h k .fresh S hk (waits_empty none none 0)]
  cases spine d n with
  | none => rfl
  | some s =>
    rw [Option.bind_some, Option.bind_some, Level.fresh, feedSpine_empty, Nat.zero_add, ← hu]
    rfl

/-- A tree is read on a fresh level. -/
theorem Parses.fresh {n : ExprNode} (h : Parses d slots n) {k : ℕ}
    (hk : n.leaves <+: slots.drop k) (S : List (Frame ExprNode)) :
    run (predicateNodes slots) ⟨.fresh, S⟩ (tokens d n k) =
      ((spine d n).map Spine.level).map (⟨·, S⟩) := by
  have hrun := h.fresh_append hk (S := S) (u := []) (f := fun s => some s.level)
    (g := (⟨·, S⟩)) fun _ => rfl
  rw [List.append_nil] at hrun
  rw [hrun]
  cases spine d n <;> rfl

/-- A tree that completes a predicate. -/
theorem Parses.operand {n : ExprNode} (h : Parses d slots n) {k : ℕ}
    (hk : n.leaves <+: slots.drop k) (disj conj : Option ExprNode) (nots : ℕ)
    (e : ExprNode → ExprNode) (S : List (Frame ExprNode)) :
    run (predicateNodes slots) ⟨⟨disj, conj, nots, .operand e⟩, S⟩ (tokens d n k) =
      (spine d n).bind fun t => if t.neg then none
        else some ⟨⟨disj, conj, nots, .done (Spine.pred ⟨false, e t.prim, t.nulls⟩)⟩, S⟩ := by
  rw [h k _ S hk (waits_operand disj conj nots e)]
  cases spine d n with
  | none => rfl
  | some t =>
    rw [Option.bind_some, feedSpine_operand, Option.bind_some]
    split <;> rfl

/-- A tree that is written in parentheses, from the level that what lies between them
leads to. -/
theorem parses_of_level {n : ExprNode} {t : ℕ → List Token} {o : Option (Level ExprNode)}
    (htokens : ∀ k, tokens d n k = .lparen :: (t k ++ [.rparen]))
    (hspine : spine d n = o.bind fun m => (m.close (predicateNodes slots)).map Spine.ofPrim)
    (h : ∀ k S, n.leaves <+: slots.drop k →
      run (predicateNodes slots) ⟨.fresh, S⟩ (t k) = o.map (⟨·, S⟩)) :
    Parses d slots n := by
  intro k l S hk hl
  rw [htokens, run_group hl (h k _ hk), hspine]
  cases o with
  | none => rfl
  | some m =>
    rw [Option.bind_some, Option.bind_some]
    cases m.close (predicateNodes slots) with
    | none => rfl
    | some e => rw [Option.bind_some, Option.map_some, Option.bind_some, feedSpine_ofPrim]

/-- A tree that is written in parentheses, from the spine of what lies between them. -/
theorem parses_of_group {n : ExprNode} {t : ℕ → List Token} {o : Option Spine}
    (htokens : ∀ k, tokens d n k = .lparen :: (t k ++ [.rparen]))
    (hspine : spine d n = o.map Spine.group)
    (h : ∀ k S, n.leaves <+: slots.drop k →
      run (predicateNodes slots) ⟨.fresh, S⟩ (t k) = o.map fun s => ⟨s.level, S⟩) :
    Parses d slots n := by
  refine parses_of_level (o := o.map Spine.level) htokens ?_ fun k S hk => ?_
  · rw [hspine]
    cases o with
    | none => rfl
    | some s => rw [Option.map_some, Option.map_some, Option.bind_some, close_level]; rfl
  · rw [h k S hk, Option.map_map]
    rfl

/-- Trees are parsed, one lemma for each kind of node. -/
theorem parses_binary {left right : ExprNode} (op : CompareOp) (hl : Parses d slots left)
    (hr : Parses d slots right) : Parses d slots (.binary left op right) := by
  refine parses_of_group (t := fun k => tokens d left k ++ .op op.comparison ::
    tokens d right (k + left.leaves.length)) (fun k => by simp [tokens]) (o := do
      let s ← spine d left
      let t ← spine d right
      if t.neg then none else some ⟨s.neg, .binary s.pred op t.prim, t.nulls⟩) ?_ ?_
  · rw [spine]
    cases spine d left with
    | none => rfl
    | some s =>
      cases spine d right with
      | none => rfl
      | some t => cases ht : t.neg <;> simp [ht]
  · intro k S hk
    rw [ExprNode.leaves_binary] at hk
    obtain ⟨hkl, hkr⟩ := prefix_drop_append hk
    refine hl.fresh_append hkl fun s => ?_
    have hop : step (predicateNodes slots) ⟨s.level, S⟩ (.op op.comparison) =
      some ⟨⟨none, none, s.neg.toNat, .operand fun b => .binary s.pred op b⟩, S⟩ := by
      simp [step, predicateNodes, Spine.level]
    rw [run_cons, hop, Option.bind_some, hr.operand hkr]
    cases spine d right with
    | none => rfl
    | some t => cases ht : t.neg <;> simp [ht, Spine.pred, Spine.level]

theorem parses_logic {left right : ExprNode} (op : LogicOp) (hl : Parses d slots left)
    (hr : Parses d slots right) : Parses d slots (.logic left op right) := by
  refine parses_of_level (t := fun k => tokens d left k ++ op.token ::
    tokens d right (k + left.leaves.length)) (fun k => by simp [tokens]) (o := do
      let s ← spine d left
      let t ← spine d right
      (Level.mk (op.disj s.tree) (op.conj s.tree) 0 .empty).feedSpine t) ?_ ?_
  · rw [spine]
    cases spine d left with
    | none => rfl
    | some s =>
      cases spine d right with
      | none => rfl
      | some t =>
        simp only [Option.bind_eq_bind, Option.bind_some, feedSpine_empty, close_after_logic]
        rfl
  · intro k S hk
    rw [ExprNode.leaves_logic] at hk
    obtain ⟨hkl, hkr⟩ := prefix_drop_append hk
    refine hl.fresh_append hkl fun s => ?_
    have hop : step (predicateNodes slots) ⟨s.level, S⟩ op.token =
        some ⟨⟨op.disj s.tree, op.conj s.tree, 0, .empty⟩, S⟩ := by
      cases op with
      | and => exact step_and (conjunct_level s) S
      | or => exact step_or (close_level s) S
    rw [run_cons, hop, Option.bind_some, hr _ _ S hkr (waits_empty _ _ 0)]
    rfl

/-- A `NOT`, and the group after it. -/
theorem parses_not {e : ExprNode} (he : Parses d slots e) : Parses d slots (.unary .not e) := by
  intro k l S hk hl
  rw [ExprNode.leaves_unary] at hk
  obtain ⟨disj, conj, nots, pred⟩ := l
  cases pred with
  | empty =>
    have hnot : step (predicateNodes slots) ⟨⟨disj, conj, nots, .empty⟩, S⟩ .not =
      some ⟨⟨disj, conj, nots + 1, .empty⟩, S⟩ := rfl
    have hgroup := run_group (waits_empty disj conj (nots + 1)) (he.fresh hk (.group _ :: S))
    rw [tokens, run_cons, hnot, Option.bind_some, hgroup, spine]
    cases spine d e with
    | none => rfl
    | some s => rw [Option.map_some, Option.bind_some, close_level]; rfl
  | operand f =>
    have hnone : step (predicateNodes slots) ⟨⟨disj, conj, nots, .operand f⟩, S⟩ .not = none :=
      rfl
    rw [tokens, run_cons, hnone, spine]
    cases spine d e <;> rfl
  | lowBound f =>
    have hnone : step (predicateNodes slots) ⟨⟨disj, conj, nots, .lowBound f⟩, S⟩ .not = none :=
      rfl
    rw [tokens, run_cons, hnone, spine]
    cases spine d e <;> rfl
  | _ => exact absurd (hl e) (by simp [Level.feed])

theorem spine_nullTest (isNot : Bool) (e : ExprNode) : spine d (nullTest isNot e) =
    (spine d e).map fun s => { s with nulls := s.nulls ++ [isNot] } := by
  cases isNot <;> (rw [nullTest]; simp only [Option.map_eq_bind]; rfl)

/-- `IS NULL` and `IS NOT NULL`. -/
theorem parses_nullTest {e : ExprNode} (isNot : Bool) (he : Parses d slots e) :
    Parses d slots (nullTest isNot e) := by
  intro k l S hk hl
  have htokens : tokens d (nullTest isNot e) k =
      tokens d e k ++ .is :: (notIf isNot ++ [.null]) := by
    cases isNot <;> rfl
  rw [nullTest, ExprNode.leaves_unary] at hk
  rw [htokens, run_append, he k l S hk hl, spine_nullTest]
  cases spine d e with
  | none => rfl
  | some s =>
    rw [Option.bind_some, Option.map_some, Option.bind_some, feedSpine_nulls]
    cases l.feedSpine s with
    | none => rfl
    | some m => exact run_nullStep m S isNot

theorem parses_between {e low high : ExprNode} (isNot : Bool) (he : Parses d slots e)
    (hlow : Parses d slots low) (hhigh : Parses d slots high) :
    Parses d slots (.between e low high isNot) := by
  refine parses_of_group (t := fun k => tokens d e k ++ (notIf isNot ++ .between ::
    (tokens d low (k + e.leaves.length) ++ .and ::
      tokens d high (k + e.leaves.length + low.leaves.length))))
    (fun k => by simp [tokens]) (o := do
      let s ← spine d e
      let t ← spine d low
      let u ← spine d high
      if t.neg || !t.nulls.isEmpty || u.neg then none
      else some ⟨s.neg, .between s.pred t.prim u.prim isNot, u.nulls⟩) ?_ ?_
  · rw [spine]
    cases spine d e with
    | none => rfl
    | some s =>
      cases spine d low with
      | none => rfl
      | some t =>
        cases spine d high with
        | none => rfl
        | some u => simp only [Option.bind_eq_bind, Option.bind_some]; split <;> rfl
  · intro k S hk
    rw [ExprNode.leaves_between] at hk
    obtain ⟨hke, hk⟩ := prefix_drop_append hk
    obtain ⟨hkl, hkh⟩ := prefix_drop_append hk
    refine he.fresh_append hke fun s => ?_
    rw [Spine.level, run_notIf isNot fun _ => rfl, run_append,
      hlow _ _ S hkl (waits_lowBound _ _ _ _)]
    cases spine d low with
    | none => rfl
    | some t =>
      have hand : ∀ f : ExprNode → ExprNode, step (predicateNodes slots)
        ⟨⟨none, none, s.neg.toNat, .andBound f⟩, S⟩ .and =
        some ⟨⟨none, none, s.neg.toNat, .operand f⟩, S⟩ := fun f => rfl
      rw [Option.bind_some, feedSpine_lowBound]
      cases ht : t.neg || !t.nulls.isEmpty with
      | true =>
        cases spine d high with
        | none => rfl
        | some u => simp only [Option.bind_eq_bind, Option.bind_some, ht, Bool.true_or]; rfl
      | false =>
        rw [if_neg Bool.false_ne_true, Option.map_some, Option.bind_some, run_cons, hand,
          Option.bind_some, hhigh.operand hkh]
        cases spine d high with
        | none => rfl
        | some u =>
          simp only [Option.bind_eq_bind, Option.bind_some, ht, Bool.false_or]
          cases u.neg <;> rfl

theorem parses_like {e pattern : ExprNode} (isNot : Bool) (he : Parses d slots e)
    (hp : Parses d slots pattern) : Parses d slots (.like e pattern isNot) := by
  refine parses_of_group (t := fun k => tokens d e k ++ (notIf isNot ++ .like ::
    tokens d pattern (k + e.leaves.length))) (fun k => by simp [tokens]) (o := do
      let s ← spine d e
      let t ← spine d pattern
      if t.neg then none else some ⟨s.neg, .like s.pred t.prim isNot, t.nulls⟩) ?_ ?_
  · rw [spine]
    cases spine d e with
    | none => rfl
    | some s =>
      cases spine d pattern with
      | none => rfl
      | some t => simp only [Option.bind_eq_bind, Option.bind_some]; split <;> rfl
  · intro k S hk
    rw [ExprNode.leaves_like] at hk
    obtain ⟨hke, hkp⟩ := prefix_drop_append hk
    refine he.fresh_append hke fun s => ?_
    rw [Spine.level, run_notIf isNot fun _ => rfl, hp.operand hkp]
    cases spine d pattern with
    | none => rfl
    | some t => cases ht : t.neg <;> simp [ht, Spine.pred, Spine.level, predicateNodes]

theorem spineList_cons (d : Dialect) (n : ExprNode) (ns : List ExprNode) :
    spineList d (n :: ns) =
      (spine d n).bind fun s => (spineList d ns).bind fun ts => some (s.tree :: ts) :=
  rfl

/-- Trees separated by commas, up to the closing parenthesis. -/
theorem run_tokensList : ∀ {ns : List ExprNode}, ns ≠ [] → (∀ n ∈ ns, Parses d slots n) →
    ∀ {k : ℕ}, ns.flatMap ExprNode.leaves <+: slots.drop k →
    ∀ (finish : List ExprNode → Option (Level ExprNode)) (read : List ExprNode)
      (S : List (Frame ExprNode)),
    run (predicateNodes slots) ⟨.fresh, .items finish read :: S⟩ (tokensList d ns k ++ [.rparen]) =
      ((spineList d ns).bind fun ts => finish (read ++ ts)).map (⟨·, S⟩)
  | [], h, _, _, _, _, _, _ => by contradiction
  | [n], _, hns, k, hk, finish, read, S => by
    rw [List.flatMap_singleton] at hk
    have hlast : ∀ s : Spine, run (predicateNodes slots)
        ⟨s.level, .items finish read :: S⟩ [.rparen] =
        (finish (read ++ [s.tree])).map (⟨·, S⟩) := by
      intro s
      rw [run_cons, step_rparen_items (close_level s)]
      cases finish (read ++ [s.tree]) <;> rfl
    rw [tokensList, (hns n List.mem_cons_self).fresh_append hk hlast, spineList_cons]
    cases spine d n <;> rfl
  | n :: m :: ns, _, hns, k, hk, finish, read, S => by
    rw [List.flatMap_cons] at hk
    obtain ⟨hkn, hk⟩ := prefix_drop_append hk
    have hrest : ∀ s : Spine, run (predicateNodes slots) ⟨s.level, .items finish read :: S⟩
        (.comma :: (tokensList d (m :: ns) (k + n.leaves.length) ++ [.rparen])) =
        ((spineList d (m :: ns)).bind fun ts => finish (read ++ [s.tree] ++ ts)).map
          (⟨·, S⟩) := by
      intro s
      rw [run_cons, step_comma (close_level s), Option.bind_some]
      exact run_tokensList (List.cons_ne_nil m ns) (fun o ho => hns o (by simp [ho])) hk _ _ _
    rw [tokensList, List.append_assoc, List.cons_append,
      (hns n List.mem_cons_self).fresh_append hkn hrest, spineList_cons d n]
    cases spine d n with
    | none => rfl
    | some s => cases spineList d (m :: ns) <;> simp

theorem spineList_ne_nil {ns ts : List ExprNode} (hns : ns ≠ []) (h : spineList d ns = some ts) :
    ts ≠ [] := by
  cases ns with
  | nil => exact absurd rfl hns
  | cons n ns =>
    rw [spineList] at h
    cases hs : spine d n <;> cases hts : spineList d ns <;> simp [hs, hts] at h
    simp [← h]

theorem parses_inList {e : ExprNode} {vs : List ExprNode} (isNot : Bool) (hvs : vs ≠ [])
    (he : Parses d slots e) (h : ∀ v ∈ vs, Parses d slots v) :
    Parses d slots (.inList e vs isNot) := by
  refine parses_of_group (t := fun k => tokens d e k ++ (notIf isNot ++ .in_ :: .lparen ::
    (tokensList d vs (k + e.leaves.length) ++ [.rparen]))) (fun k => by simp [tokens]) (o := do
      let s ← spine d e
      let ts ← spineList d vs
      some ⟨s.neg, .inList s.pred ts isNot, []⟩) ?_ ?_
  · rw [spine]
    cases spine d e with
    | none => rfl
    | some s => cases spineList d vs <;> rfl
  · intro k S hk
    rw [ExprNode.leaves_inList] at hk
    obtain ⟨hke, hkv⟩ := prefix_drop_append hk
    refine he.fresh_append hke fun s => ?_
    have hopen : ∀ f : List ExprNode → ExprNode, step (predicateNodes slots)
      ⟨⟨none, none, s.neg.toNat, .list f⟩, S⟩ .lparen = some ⟨.fresh, .items (fun as =>
        if as.isEmpty then none else some ⟨none, none, s.neg.toNat, .done (f as)⟩) [] :: S⟩ :=
      fun f => rfl
    rw [Spine.level, run_notIf isNot fun _ => rfl, run_cons, hopen, Option.bind_some,
      run_tokensList hvs h hkv]
    cases hts : spineList d vs with
    | none => rfl
    | some ts =>
      have hne : ts ≠ [] := spineList_ne_nil hvs hts
      simp [hne, Spine.pred, Spine.level, predicateNodes]

theorem parses_function {f : String} {args : List ExprNode}
    (h : ∀ n ∈ args, Parses d slots n) : Parses d slots (.function f args) := by
  intro k l S hk hl
  rw [ExprNode.leaves_function] at hk
  have hcall : step (predicateNodes slots) ⟨l, S⟩ (.call (d.functionName f)) =
    some ⟨.fresh, .items (fun as => l.feed (.function (d.functionName f) as)) [] :: S⟩ := rfl
  rw [tokens, spine, run_cons, hcall, Option.bind_some]
  cases args with
  | nil =>
    have hclose : step (predicateNodes slots)
      ⟨.fresh, .items (fun as => l.feed (.function (d.functionName f) as)) [] :: S⟩ .rparen =
      (l.feed (.function (d.functionName f) [])).map (⟨·, S⟩) := rfl
    have hspine : spineList d [] = some [] := rfl
    rw [tokensList, List.nil_append, run_cons, hclose, hspine]
    simp only [Option.bind_eq_bind, Option.bind_some, feedSpine_ofPrim]
    cases l.feed (.function (d.functionName f) []) <;> rfl
  | cons n ns =>
    rw [run_tokensList (List.cons_ne_nil n ns) h hk]
    cases spineList d (n :: ns) with
    | none => rfl
    | some ts => simp [feedSpine_ofPrim]

theorem parses_columnRef (ref : ColumnRef) : Parses d slots (.columnRef ref) := by
  intro k l S _ _
  rw [tokens, spine, Option.bind_some, feedSpine_ofPrim, run_cons]
  change ((l.feed (.columnRef ref)).map _).bind _ = _
  cases l.feed (.columnRef ref) <;> rfl

/-- A value is the slot with the number of its placeholder. -/
theorem param_of_value {n : ExprNode} {s : ParameterSlot} (hs : n.slot? = some s)
    (hn : s.node = n) {k : ℕ} (hk : n.leaves <+: slots.drop k) :
    (predicateNodes slots).param k = some n := by
  have hleaves : n.leaves = [s] := by
    rw [ExprNode.leaves_eq, hs]
    cases n <;> first | rfl | simp [ExprNode.slot?] at hs
  rw [hleaves] at hk
  obtain ⟨t, ht⟩ := hk
  have hget : slots[k]? = some s := by
    rw [← List.head?_drop, ← ht]
    rfl
  rw [← hn]
  exact congrArg (Option.map ParameterSlot.node) hget

theorem parses_value {n : ExprNode} {s : ParameterSlot} (hs : n.slot? = some s)
    (hn : s.node = n) : Parses d slots n := by
  intro k l S hk _
  have hstep : run (predicateNodes slots) ⟨l, S⟩ [.param k] = (l.feed n).map (⟨·, S⟩) := by
    rw [run_cons, step, param_of_value hs hn hk, Option.bind_eq_bind, Option.bind_some]
    cases l.feed n <;> rfl
  cases n with
  | literal v => rw [tokens, spine, Option.bind_some, feedSpine_ofPrim, hstep]
  | paramPlaceholder i => rw [tokens, spine, Option.bind_some, feedSpine_ofPrim, hstep]
  | _ => simp [ExprNode.slot?] at hs

/-- Every tree of the predicate language is parsed, well or ill. -/
theorem parses_of_predicate {n : ExprNode} (h : ∀ m ∈ n.visited, m.IsPredicateNode d) :
    Parses d slots n := by
  induction n using ExprNode.children_induction with
  | step n ih =>
    rw [ExprNode.forall_mem_visited] at h
    obtain ⟨hn, hc⟩ := h
    have hp : ∀ m ∈ n.children, Parses d slots m := fun m hm => ih m hm (hc m hm)
    cases n with
    | columnRef ref => exact parses_columnRef ref
    | literal v => exact parses_value rfl rfl
    | paramPlaceholder i => exact parses_value rfl rfl
    | binary l op r =>
      exact parses_binary op (hp l (by simp [ExprNode.children]))
        (hp r (by simp [ExprNode.children]))
    | logic l op r =>
      exact parses_logic op (hp l (by simp [ExprNode.children]))
        (hp r (by simp [ExprNode.children]))
    | unary op e =>
      have he := hp e (by simp [ExprNode.children])
      cases op with
      | not => exact parses_not he
      | isNull => exact parses_nullTest false he
      | isNotNull => exact parses_nullTest true he
    | between e low high isNot =>
      exact parses_between isNot (hp e (by simp [ExprNode.children]))
        (hp low (by simp [ExprNode.children])) (hp high (by simp [ExprNode.children]))
    | like e p isNot =>
      exact parses_like isNot (hp e (by simp [ExprNode.children]))
        (hp p (by simp [ExprNode.children]))
    | inList e vs isNot =>
      exact parses_inList isNot hn (hp e List.mem_cons_self)
        fun v hv => hp v (List.mem_cons_of_mem e hv)
    | function f args => exact parses_function hp
    | _ => exact hn.elim

/-- The parser finds the tree of the spine, if there is one. -/
theorem parse_tokens {n : ExprNode} (h : ∀ m ∈ n.visited, m.IsPredicateNode d) :
    parse (predicateNodes n.leaves) (tokens d n 0) = (spine d n).map Spine.tree := by
  have hparses : Parses d n.leaves n := parses_of_predicate h
  have hrun := hparses.fresh (k := 0) (List.prefix_refl _) []
  rw [parse, hrun]
  cases spine d n with
  | none => rfl
  | some s => exact close_level s

end Reading

end CppLinq
