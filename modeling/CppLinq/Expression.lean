import CppLinq.Values
import Mathlib.Data.List.Flatten

/-!
# Expression trees

The expression nodes of `core/expression.h`. A tree here has no null node : the
`shared_ptr`s of the source are plain subtrees, and the one pointer that a builder leaves
null, the condition of a subquery, is an `Option`.

`children` lists the subtrees a generator visits below a node, in visiting order, and
`visited` all nodes it visits, each before those below it. The argument of a ranking
window function is the one subtree that is not visited.
-/

namespace CppLinq

/-- `CompareOp`. -/
inductive CompareOp
  | eq | ne | lt | le | gt | ge
  deriving DecidableEq, Repr

/-- `LogicOp`. -/
inductive LogicOp
  | and | or
  deriving DecidableEq, Repr

/-- `UnaryOp`. -/
inductive UnaryOp
  | not | isNull | isNotNull
  deriving DecidableEq, Repr

/-- `SortDir`. -/
inductive SortDir
  | asc | desc
  deriving DecidableEq, Repr

/-- `DatePart`. -/
inductive DatePart
  | year | month | day
  deriving DecidableEq, Repr

/-- `WindowFunctionType`. -/
inductive WindowFunctionType
  | rowNumber | rank | denseRank | sum | avg | min | max | count
  deriving DecidableEq, Repr

/-- A column, with its table unless that is empty. -/
structure ColumnRef where
  tableName : String := ""
  columnName : String
  deriving DecidableEq, Repr

/-- `SubqueryExpr` over the type of its condition. -/
structure SubqueryOf (ε : Type) where
  tableName : String
  selectColumns : List String := []
  where_ : Option ε := none
  isDistinct : Bool := false
  deriving Repr

/-- The node variant. A clause of a window's ordering is its expression and direction. -/
inductive ExprNode
  | columnRef (ref : ColumnRef)
  | literal (value : SqlValue)
  | paramPlaceholder (index : ℕ)
  | binary (left : ExprNode) (op : CompareOp) (right : ExprNode)
  | logic (left : ExprNode) (op : LogicOp) (right : ExprNode)
  | unary (op : UnaryOp) (operand : ExprNode)
  | between (expr low high : ExprNode) (isNot : Bool)
  | like (expr pattern : ExprNode) (isNot : Bool)
  | inList (expr : ExprNode) (values : List ExprNode) (isNot : Bool)
  | function (functionName : String) (arguments : List ExprNode)
  | subquery (sub : SubqueryOf ExprNode)
  | existsSub (sub : SubqueryOf ExprNode) (isNot : Bool)
  | inSubquery (expr : ExprNode) (sub : SubqueryOf ExprNode) (isNot : Bool)
  | extract (part : DatePart) (expr : ExprNode)
  | dateAdd (expr days : ExprNode)
  | window (func : WindowFunctionType) (arg : Option ExprNode)
      (partitionClauses : List ExprNode) (orderClauses : List (ExprNode × SortDir))
  | currentTimestamp
  | currentDate

/-- `SubqueryExpr`. -/
abbrev SubqueryExpr := SubqueryOf ExprNode

/-- An ordering clause : an expression and its direction. -/
abbrev OrderByExpr := ExprNode × SortDir

/-- An assignment of an UPDATE. -/
structure AssignExpr where
  column : ColumnRef
  value : ExprNode

namespace ExprNode

/-- The argument a window function visits. The ranking functions take none. -/
def windowArg : WindowFunctionType → Option ExprNode → Option ExprNode
  | .rowNumber, _ | .rank, _ | .denseRank, _ => none
  | _, arg => arg

/-- The subtrees visited below a node, in visiting order. -/
def children : ExprNode → List ExprNode
  | .columnRef _ | .literal _ | .paramPlaceholder _ => []
  | .binary l _ r => [l, r]
  | .logic l _ r => [l, r]
  | .unary _ e => [e]
  | .between e low high _ => [e, low, high]
  | .like e pattern _ => [e, pattern]
  | .inList e values _ => e :: values
  | .function _ args => args
  | .subquery sub => sub.where_.toList
  | .existsSub sub _ => sub.where_.toList
  | .inSubquery e sub _ => e :: sub.where_.toList
  | .extract _ e => [e]
  | .dateAdd e days => [e, days]
  | .window func arg ps os => (windowArg func arg).toList ++ ps ++ os.map Prod.fst
  | .currentTimestamp | .currentDate => []

theorem sizeOf_lt_of_mem_map_fst {n : ExprNode} :
    ∀ {os : List (ExprNode × SortDir)}, n ∈ os.map Prod.fst → sizeOf n < sizeOf os
  | (e, dir) :: os, h => by
    rcases List.mem_cons.mp h with rfl | h
    · simp
      omega
    · have := sizeOf_lt_of_mem_map_fst h
      simp
      omega

theorem sizeOf_lt_of_mem_windowArg {n : ExprNode} {func : WindowFunctionType}
    {arg : Option ExprNode} (h : n ∈ (windowArg func arg).toList) : sizeOf n < sizeOf arg := by
  cases arg with
  | none => cases func <;> simp [windowArg] at h
  | some a => cases func <;> simp_all [windowArg]

theorem sizeOf_lt_of_mem_where {n : ExprNode} {sub : SubqueryExpr}
    (h : n ∈ sub.where_.toList) : sizeOf n < sizeOf sub := by
  obtain ⟨_, _, w, _⟩ := sub
  simp only [Option.mem_toList] at h
  subst h
  simp
  omega

/-- The children of a node are smaller. -/
theorem sizeOf_lt_of_mem_children {n c : ExprNode} (h : c ∈ n.children) : sizeOf c < sizeOf n := by
  cases n with
  | inList e values isNot =>
    rcases List.mem_cons.mp h with rfl | h
    · simp
      omega
    · have := List.sizeOf_lt_of_mem h
      simp
      omega
  | function name args =>
    have := List.sizeOf_lt_of_mem (show c ∈ args from h)
    simp
    omega
  | subquery sub =>
    have := sizeOf_lt_of_mem_where h
    simp
    omega
  | existsSub sub isNot =>
    have := sizeOf_lt_of_mem_where h
    simp
    omega
  | inSubquery e sub isNot =>
    rcases List.mem_cons.mp h with rfl | h
    · simp
      omega
    · have := sizeOf_lt_of_mem_where h
      simp
      omega
  | window func arg ps os =>
    simp only [children, List.mem_append] at h
    rcases h with (h | h) | h
    · have := sizeOf_lt_of_mem_windowArg h
      simp
      omega
    · have := List.sizeOf_lt_of_mem h
      simp
      omega
    · have := sizeOf_lt_of_mem_map_fst h
      simp
      omega
  | _ =>
    simp [children] at h
    try rcases h with rfl | rfl | rfl
    all_goals simp; try omega

/-- Induction over the visited subtrees. -/
theorem children_induction {P : ExprNode → Prop}
    (step : ∀ n : ExprNode, (∀ c ∈ n.children, P c) → P n) (n : ExprNode) : P n :=
  step n fun c h =>
    have := sizeOf_lt_of_mem_children h
    children_induction step c
termination_by sizeOf n

/-- The nodes visited from `n` : `n`, then those of its visited subtrees in order. -/
def visited (n : ExprNode) : List ExprNode :=
  n :: n.children.attach.flatMap fun c => visited c.1
termination_by sizeOf n
decreasing_by exact sizeOf_lt_of_mem_children c.2

/-- A node is visited, and what its children visit. -/
theorem visited_eq (n : ExprNode) : n.visited = n :: n.children.flatMap visited := by
  rw [visited]
  simp [List.flatMap_subtype]

/-- A property of all visited nodes, at the node and below. -/
theorem forall_mem_visited {P : ExprNode → Prop} {n : ExprNode} :
    (∀ m ∈ n.visited, P m) ↔ P n ∧ ∀ c ∈ n.children, ∀ m ∈ c.visited, P m := by
  rw [visited_eq, List.forall_mem_cons]
  simp only [List.mem_flatMap]
  exact and_congr_right fun _ => ⟨fun h c hc m hm => h m ⟨c, hc, hm⟩,
    fun h m ⟨c, hc, hm⟩ => h c hc m hm⟩

/-- The slot a value node records. -/
def slot? : ExprNode → Option ParameterSlot
  | .literal v => some (.static v)
  | .paramPlaceholder i => some (.dynamic i)
  | _ => none

/-- The slots of the value nodes visited from `n`, in visiting order. -/
def leaves (n : ExprNode) : List ParameterSlot :=
  n.visited.filterMap slot?

/-- The leaves of a node are its own slot and those of its children. -/
theorem leaves_eq (n : ExprNode) :
    n.leaves = n.slot?.toList ++ n.children.flatMap leaves := by
  have hf : ∀ ns : List ExprNode, (ns.flatMap visited).filterMap slot? = ns.flatMap leaves := by
    intro ns
    simp only [List.filterMap_flatMap]
    rfl
  rw [leaves, visited_eq, ← hf]
  cases h : n.slot? with
  | none => rw [List.filterMap_cons_none h, Option.toList_none, List.nil_append]
  | some s => rw [List.filterMap_cons_some h, Option.toList_some, List.singleton_append]

@[simp] theorem leaves_columnRef (ref : ColumnRef) : (columnRef ref).leaves = [] := by
  rw [leaves_eq]
  rfl

@[simp] theorem leaves_literal (v : SqlValue) : (literal v).leaves = [.static v] := by
  rw [leaves_eq]
  rfl

@[simp] theorem leaves_paramPlaceholder (i : ℕ) : (paramPlaceholder i).leaves = [.dynamic i] := by
  rw [leaves_eq]
  rfl

@[simp] theorem leaves_binary (l : ExprNode) (op : CompareOp) (r : ExprNode) :
    (binary l op r).leaves = l.leaves ++ r.leaves := by
  rw [leaves_eq]
  exact congrArg (l.leaves ++ ·) (List.append_nil r.leaves)

@[simp] theorem leaves_logic (l : ExprNode) (op : LogicOp) (r : ExprNode) :
    (logic l op r).leaves = l.leaves ++ r.leaves := by
  rw [leaves_eq]
  exact congrArg (l.leaves ++ ·) (List.append_nil r.leaves)

@[simp] theorem leaves_unary (op : UnaryOp) (e : ExprNode) : (unary op e).leaves = e.leaves := by
  rw [leaves_eq]
  exact List.append_nil e.leaves

@[simp] theorem leaves_between (e low high : ExprNode) (isNot : Bool) :
    (between e low high isNot).leaves = e.leaves ++ (low.leaves ++ high.leaves) := by
  rw [leaves_eq]
  exact congrArg (fun ls => e.leaves ++ (low.leaves ++ ls)) (List.append_nil high.leaves)

@[simp] theorem leaves_like (e p : ExprNode) (isNot : Bool) :
    (like e p isNot).leaves = e.leaves ++ p.leaves := by
  rw [leaves_eq]
  exact congrArg (e.leaves ++ ·) (List.append_nil p.leaves)

@[simp] theorem leaves_inList (e : ExprNode) (vs : List ExprNode) (isNot : Bool) :
    (inList e vs isNot).leaves = e.leaves ++ vs.flatMap leaves := by
  rw [leaves_eq]
  rfl

@[simp] theorem leaves_function (f : String) (args : List ExprNode) :
    (function f args).leaves = args.flatMap leaves := by
  rw [leaves_eq]
  rfl

@[simp] theorem leaves_dateAdd (e days : ExprNode) :
    (dateAdd e days).leaves = e.leaves ++ days.leaves := by
  rw [leaves_eq]
  exact congrArg (e.leaves ++ ·) (List.append_nil days.leaves)

end ExprNode

end CppLinq
