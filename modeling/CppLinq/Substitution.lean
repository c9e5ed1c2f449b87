import CppLinq.QueryBuilder
import CppLinq.StatementTrees

/-!
# Arguments in place of parameter placeholders

`ExprNode.substitute` puts the literal of the `i`-th argument in place of every placeholder
of parameter `i`, and leaves a placeholder without argument as it is. A generation from the
substituted trees writes the same text, and records the same slots with the arguments
filled in (`Agree`). As for `Writes`, one rule for `bind` and one for `pure` carry this
from the steps of the generator to the statements.
-/

namespace CppLinq

/-! ## Substitution -/

namespace ExprNode

mutual

/-- The tree with values in place of its placeholders. -/
def substitute (args : List BoundValue) : ExprNode → ExprNode
  | .columnRef ref => .columnRef ref
  | .literal value => .literal value
  | .paramPlaceholder index =>
    match args[index]? with
    | some v => .literal v
    | none => .paramPlaceholder index
  | .binary left op right => .binary (substitute args left) op (substitute args right)
  | .logic left op right => .logic (substitute args left) op (substitute args right)
  | .unary op operand => .unary op (substitute args operand)
  | .between expr low high isNot =>
    .between (substitute args expr) (substitute args low) (substitute args high) isNot
  | .like expr pattern isNot => .like (substitute args expr) (substitute args pattern) isNot
  | .inList expr values isNot => .inList (substitute args expr) (substituteList args values) isNot
  | .function functionName arguments => .function functionName (substituteList args arguments)
  | .subquery ⟨tableName, columns, where_, isDistinct⟩ =>
    .subquery ⟨tableName, columns, substituteOption args where_, isDistinct⟩
  | .existsSub ⟨tableName, columns, where_, isDistinct⟩ isNot =>
    .existsSub ⟨tableName, columns, substituteOption args where_, isDistinct⟩ isNot
  | .inSubquery expr ⟨tableName, columns, where_, isDistinct⟩ isNot =>
    .inSubquery (substitute args expr)
      ⟨tableName, columns, substituteOption args where_, isDistinct⟩ isNot
  | .extract part expr => .extract part (substitute args expr)
  | .dateAdd expr days => .dateAdd (substitute args expr) (substitute args days)
  | .window func arg partitionClauses orderClauses =>
    .window func (substituteOption args arg) (substituteList args partitionClauses)
      (substituteOrderBy args orderClauses)
  | .currentTimestamp => .currentTimestamp
  | .currentDate => .currentDate
termination_by structural e => e

/-- The same of a tree that may be missing. -/
def substituteOption (args : List BoundValue) : Option ExprNode → Option ExprNode
  | none => none
  | some e => some (substitute args e)
termination_by structural e => e

/-- The same of several trees. -/
def substituteList (args : List BoundValue) : List ExprNode → List ExprNode
  | [] => []
  | e :: es => substitute args e :: substituteList args es
termination_by structural es => es

/-- The same of an ordering. -/
def substituteOrderBy (args : List BoundValue) :
    List (ExprNode × SortDir) → List (ExprNode × SortDir)
  | [] => []
  | (e, dir) :: os => (substitute args e, dir) :: substituteOrderBy args os
termination_by structural os => os

end

end ExprNode

/-- A dynamic slot with an argument becomes the static slot of its value. -/
def ParameterSlot.fill (args : List BoundValue) : ParameterSlot → ParameterSlot
  | .dynamic i =>
    match args[i]? with
    | some v => .static v
    | none => .dynamic i
  | .static v => .static v

/-- The same of a subquery. -/
def SubqueryExpr.substitute (args : List BoundValue) (sub : SubqueryExpr) : SubqueryExpr :=
  { sub with where_ := ExprNode.substituteOption args sub.where_ }

/-- The same of a common table expression. -/
def CteClause.substitute (args : List BoundValue) (c : CteClause) : CteClause :=
  { c with subquery := SubqueryExpr.substitute args c.subquery }

/-- The same of an assignment. -/
def AssignExpr.substitute (args : List BoundValue) (a : AssignExpr) : AssignExpr :=
  { a with value := a.value.substitute args }

/-- The same query with the arguments in place of its placeholders. -/
def QueryBuilder.substitute (args : List BoundValue) (q : QueryBuilder) : QueryBuilder :=
  { q with
    where_ := ExprNode.substituteOption args q.where_
    orderClauses := ExprNode.substituteOrderBy args q.orderClauses
    groupByClauses := ExprNode.substituteList args q.groupByClauses
    having := ExprNode.substituteOption args q.having
    ctes := q.ctes.map (CteClause.substitute args) }

/-! ## Generations that agree -/

/-- `c'` is `c` with the arguments filled in. -/
structure Context.Fills (args : List BoundValue) (c c' : Context) : Prop where
  paramCounter_eq : c'.paramCounter = c.paramCounter
  slots_eq : c'.slots = c.slots.map (ParameterSlot.fill args)

/-- From a context with the arguments filled in, `g'` writes the text of `g` and fills the
arguments into what it records. -/
def Agree (args : List BoundValue) (g g' : Gen Text) : Prop :=
  ∀ c c', Context.Fills args c c' →
    (g' c').1 = (g c).1 ∧ Context.Fills args (g c).2 (g' c').2

section Rules

variable {args : List BoundValue} {d : Dialect}

theorem agree_pure (t : Text) : Agree args (pure t) (pure t) :=
  fun _ _ h => ⟨rfl, h⟩

/-- Generations that agree may follow each other. -/
theorem Agree.bind {g g' : Gen Text} {h h' : Text → Gen Text} (hg : Agree args g g')
    (hh : ∀ t, Agree args (h t) (h' t)) : Agree args (g >>= h) (g' >>= h') := by
  intro c c' hc
  obtain ⟨htext, hfills⟩ := hg c c' hc
  have hrun : (g >>= h) c = h (g c).1 (g c).2 := rfl
  have hrun' : (g' >>= h') c' = h' (g' c').1 (g' c').2 := rfl
  rw [hrun, hrun', htext]
  exact hh _ _ _ hfills

/-- A placeholder agrees with what is put in its place. -/
theorem agree_nextPlaceholder (s : ParameterSlot) :
    Agree args (nextPlaceholder s) (nextPlaceholder (s.fill args)) := by
  intro c c' hc
  refine ⟨?_, ?_, ?_⟩
  · exact congrArg placeholder hc.paramCounter_eq
  · exact congrArg (· + 1) hc.paramCounter_eq
  · change c'.slots ++ [s.fill args] = (c.slots ++ [s]).map (ParameterSlot.fill args)
    rw [List.map_append, hc.slots_eq]
    rfl

/-- The parameters play no part in the agreement. -/
theorem agree_visitLiteral {s : ParameterSlot} {v : BoundValue} {g : Gen Text}
    (hs : s.fill args = .static v) (hg : Agree args g (nextPlaceholder (s.fill args))) :
    Agree args g (visitLiteral v) := by
  intro c c' hc
  rw [hs] at hg
  exact hg c { c' with params := c'.params ++ [v] } ⟨hc.paramCounter_eq, hc.slots_eq⟩

theorem agree_literal (v : BoundValue) : Agree args (visitLiteral v) (visitLiteral v) := by
  intro c c' hc
  exact agree_nextPlaceholder (.static v) { c with params := c.params ++ [v] }
    { c' with params := c'.params ++ [v] } ⟨hc.paramCounter_eq, hc.slots_eq⟩

theorem agree_listClause {α : Type*} {whenEmpty before after : Text} {items items' : List α}
    {g g' : Gen Text} (hg : Agree args g g') (hitems : items'.isEmpty = items.isEmpty) :
    Agree args (listClause whenEmpty before after items g)
      (listClause whenEmpty before after items' g') := by
  unfold listClause
  rw [hitems]
  exact hg.bind fun _ => agree_pure _

theorem agree_windowCall {arg arg' : String → Gen Text} (h : ∀ s, Agree args (arg s) (arg' s))
    (func : WindowFunctionType) : Agree args (windowCall arg func) (windowCall arg' func) := by
  cases func with
  | rowNumber | rank | denseRank => exact agree_pure _
  | _ => exact (h _).bind fun _ => agree_pure _

theorem isEmpty_substituteList (es : List ExprNode) :
    (ExprNode.substituteList args es).isEmpty = es.isEmpty := by
  cases es <;> rfl

theorem isEmpty_substituteOrderBy (os : List OrderByExpr) :
    (ExprNode.substituteOrderBy args os).isEmpty = os.isEmpty := by
  rcases os with _ | ⟨⟨_, _⟩, _⟩ <;> rfl

mutual

/-- A substituted tree is written as the tree is. -/
theorem agree_visit : ∀ n : ExprNode, Agree args (visit d n) (visit d (n.substitute args))
  | .columnRef _ | .currentTimestamp | .currentDate => agree_pure _
  | .literal v => agree_literal v
  | .paramPlaceholder i => by
    rw [ExprNode.substitute]
    cases h : args[i]? with
    | none =>
      have hplaceholder : Agree args (nextPlaceholder (.dynamic i))
          (nextPlaceholder ((ParameterSlot.dynamic i).fill args)) := agree_nextPlaceholder _
      rw [ParameterSlot.fill, h] at hplaceholder
      exact hplaceholder
    | some v =>
      refine agree_visitLiteral ?_ (agree_nextPlaceholder (.dynamic i))
      rw [ParameterSlot.fill, h]
  | .binary l _ r | .logic l _ r | .like l r _ | .dateAdd l r =>
    (agree_visit l).bind fun _ => (agree_visit r).bind fun _ => agree_pure _
  | .unary .not e | .unary .isNull e | .unary .isNotNull e =>
    (agree_visit e).bind fun _ => agree_pure _
  | .between e low high _ =>
    (agree_visit e).bind fun _ => (agree_visit low).bind fun _ =>
      (agree_visit high).bind fun _ => agree_pure _
  | .inList e [] _ => (agree_visit e).bind fun _ => agree_pure _
  | .inList e (v :: vs) _ =>
    (agree_visit e).bind fun _ => (agree_visitList (v :: vs)).bind fun _ => agree_pure _
  | .function _ args => (agree_visitList args).bind fun _ => agree_pure _
  | .subquery ⟨_, _, w, _⟩ => (agree_visitOption w).bind fun _ => agree_pure _
  | .existsSub ⟨_, _, w, _⟩ _ => (agree_visitOption w).bind fun _ => agree_pure _
  | .inSubquery e ⟨_, _, w, _⟩ _ =>
    (agree_visit e).bind fun _ => (agree_visitOption w).bind fun _ => agree_pure _
  | .extract _ e => (agree_visit e).bind fun _ => agree_pure _
  | .window func arg ps os => by
    rw [ExprNode.substitute, visit, visit, isEmpty_substituteList]
    exact (agree_windowCall (fun _ => agree_visitOption arg) func).bind fun _ =>
      (agree_listClause (agree_visitList ps) (isEmpty_substituteList ps)).bind fun _ =>
      (agree_listClause (agree_visitOrderBy os) (isEmpty_substituteOrderBy os)).bind fun _ =>
      agree_pure _

/-- Parts of a statement agree with themselves, their values put in. -/
theorem agree_visitOption {before whenNone : String} : ∀ e : Option ExprNode,
    Agree args (visitOption d before whenNone e)
      (visitOption d before whenNone (ExprNode.substituteOption args e))
  | none => agree_pure _
  | some e => (agree_visit e).bind fun _ => agree_pure _

theorem agree_visitList : ∀ es : List ExprNode,
    Agree args (visitList d es) (visitList d (ExprNode.substituteList args es))
  | [] => agree_pure _
  | [e] => agree_visit e
  | e :: f :: es =>
    (agree_visit e).bind fun _ => (agree_visitList (f :: es)).bind fun _ => agree_pure _

theorem agree_visitOrderBy : ∀ os : List (ExprNode × SortDir),
    Agree args (visitOrderBy d os) (visitOrderBy d (ExprNode.substituteOrderBy args os))
  | [] => agree_pure _
  | [(e, _)] => (agree_visit e).bind fun _ => agree_pure _
  | (e, _) :: (f, dir) :: os =>
    (agree_visit e).bind fun _ => (agree_visitOrderBy ((f, dir) :: os)).bind fun _ =>
      agree_pure _

end

theorem agree_cteList : ∀ ctes : List CteClause,
    Agree args (cteList d ctes) (cteList d (ctes.map (CteClause.substitute args)))
  | [] => agree_pure _
  | [⟨_, ⟨_, _, w, _⟩⟩] => (agree_visitOption w).bind fun _ => agree_pure _
  | ⟨_, ⟨_, _, w, _⟩⟩ :: c :: ctes =>
    (agree_visitOption w).bind fun _ => (agree_cteList (c :: ctes)).bind fun _ => agree_pure _

theorem agree_assignmentList : ∀ as : List AssignExpr,
    Agree args (assignmentList d as) (assignmentList d (as.map (AssignExpr.substitute args)))
  | [] => agree_pure _
  | [a] => (agree_visit a.value).bind fun _ => agree_pure _
  | a :: b :: as =>
    (agree_visit a.value).bind fun _ => (agree_assignmentList (b :: as)).bind fun _ =>
      agree_pure _

/-! ## Statements -/

/-- `r'` is `r` with the arguments filled in. -/
structure GeneratedSql.Fills (args : List BoundValue) (r r' : GeneratedSql) : Prop where
  sql_eq : r'.sql = r.sql
  slots_eq : r'.slots = r.slots.map (ParameterSlot.fill args)

/-- Generations that agree make statements that one fills the other. -/
theorem Agree.fills {g g' : Gen Text} (h : Agree args g g') :
    GeneratedSql.Fills args (GeneratedSql.of g) (GeneratedSql.of g') := by
  obtain ⟨htext, hfills⟩ := h (.start 0) (.start 0) ⟨rfl, rfl⟩
  exact ⟨htext, hfills.slots_eq⟩

/-- The statements, one lemma for each. -/
theorem generateCteSelect_fills (args : List BoundValue) {ctes : List CteClause} {table : String}
    {columns : List String} {w : Option ExprNode} {order : List OrderByExpr}
    {limit offset : Option ℕ} {distinct : Bool} {group : List ExprNode}
    {having : Option ExprNode} {r : GeneratedSql}
    (h : generateCteSelect d ctes table columns w order limit offset distinct group having =
      .ok r) :
    ∃ r', generateCteSelect d (ctes.map (CteClause.substitute args)) table columns
        (ExprNode.substituteOption args w) (ExprNode.substituteOrderBy args order) limit offset
        distinct (ExprNode.substituteList args group) (ExprNode.substituteOption args having) =
      .ok r' ∧ GeneratedSql.Fills args r r' := by
  unfold generateCteSelect at h ⊢
  cases hp : d.limitOffset limit offset with
  | error e => rw [hp] at h; contradiction
  | ok paging =>
    rw [hp] at h
    injection h with h
    rw [← h]
    refine ⟨_, rfl, Agree.fills ?_⟩
    exact (agree_listClause (agree_cteList ctes) (by simp)).bind fun _ =>
      (agree_visitOption w).bind fun _ =>
      (agree_listClause (agree_visitList group) (isEmpty_substituteList group)).bind fun _ =>
      (agree_visitOption having).bind fun _ =>
      (agree_listClause (agree_visitOrderBy order) (isEmpty_substituteOrderBy order)).bind
        fun _ => agree_pure _

end Rules

end CppLinq
