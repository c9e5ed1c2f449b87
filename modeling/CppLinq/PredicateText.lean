import CppLinq.SlotCorrespondence
import CppLinq.SqlLexer

/-!
# The text of a predicate

`generate_expression` on trees of columns, values, comparisons, `AND`, `OR`, `NOT`,
`IS NULL`, `BETWEEN`, `LIKE`, `IN` and functions (`ExprNode.IsPredicateNode`). The text
splits into the tokens of the tree (`lex_generateExpression`).
-/

namespace CppLinq

/-! ## Names and quotes -/

/-- The comparison of the grammar. -/
def CompareOp.comparison : CompareOp → Comparison
  | .eq => .eq
  | .ne => .ne
  | .lt => .lt
  | .le => .le
  | .gt => .gt
  | .ge => .ge

/-- The operator of a comparison. -/
def Comparison.compareOp : Comparison → CompareOp
  | .eq => .eq
  | .ne => .ne
  | .lt => .lt
  | .le => .le
  | .gt => .gt
  | .ge => .ge

@[simp] theorem CompareOp.compareOp_comparison (op : CompareOp) : op.comparison.compareOp = op := by
  cases op <;> rfl

/-- The quotes that `quote_id` uses. -/
def Dialect.quotes : Dialect → Quotes
  | .sqlite | .postgres | .informix | .oracle => ⟨'"', '"', rfl, rfl, by decide⟩
  | .mssql => ⟨'[', ']', rfl, rfl, by decide⟩
  | .mysql => ⟨'\x60', '\x60', rfl, rfl, by decide⟩

/-- A quoted name is rendered the same for every marker. -/
theorem render_quoteWith (m : ℕ → List Char) (q : Quotes) (id : String) :
    render m (quoteWith q.opening q.closing id) = quoteChars q id.toList := by
  have h : ∀ cs : List Char, render m (cs.flatMap fun c => if c = q.closing
      then [.chr q.closing, .chr q.closing] else [.chr c]) =
      cs.flatMap fun c => if c = q.closing then [c, c] else [c] := by
    intro cs
    induction cs with
    | nil => rfl
    | cons c cs ih =>
      rw [List.flatMap_cons, List.flatMap_cons, render_append, ih]
      by_cases hc : c = q.closing
      · rw [if_pos hc, if_pos hc, hc]
        rfl
      · rw [if_neg hc, if_neg hc]
        rfl
  have hcons : ∀ (c : Char) (t : Text), render m (.chr c :: t) = c :: render m t := fun _ _ => rfl
  rw [quoteWith, quoteChars, List.cons_append, hcons, render_append, h]
  rfl

theorem write_quoteId (d : Dialect) (id : String) :
    d.write (d.quoteId id) = quoteChars d.quotes id.toList := by
  have hquotes : d.quoteId id = quoteWith d.quotes.opening d.quotes.closing id := by
    cases d <;> rfl
  rw [Dialect.write, hquotes, render_quoteWith]

namespace ExprNode

mutual

/-- The predicate with its functions named as the dialect names them. -/
def inDialect (d : Dialect) : ExprNode → ExprNode
  | .binary left op right => .binary (inDialect d left) op (inDialect d right)
  | .logic left op right => .logic (inDialect d left) op (inDialect d right)
  | .unary op operand => .unary op (inDialect d operand)
  | .between expr low high isNot =>
    .between (inDialect d expr) (inDialect d low) (inDialect d high) isNot
  | .like expr pattern isNot => .like (inDialect d expr) (inDialect d pattern) isNot
  | .inList expr values isNot => .inList (inDialect d expr) (inDialectList d values) isNot
  | .function functionName arguments =>
    .function (d.functionName functionName) (inDialectList d arguments)
  | n => n
termination_by structural n => n

/-- The trees, their functions named as the dialect names them. -/
def inDialectList (d : Dialect) : List ExprNode → List ExprNode
  | [] => []
  | n :: ns => inDialect d n :: inDialectList d ns
termination_by structural ns => ns

end

/-- The nodes a predicate is built from. A list is not empty, and a function has a name. -/
def IsPredicateNode (d : Dialect) : ExprNode → Prop
  | .columnRef _ | .literal _ | .paramPlaceholder _ => True
  | .binary _ _ _ | .logic _ _ _ | .unary _ _ | .between _ _ _ _ | .like _ _ _ => True
  | .inList _ values _ => values ≠ []
  | .function functionName _ => IsFunctionName (d.functionName functionName).toList
  | _ => False

end ExprNode

/-- The word of an operator. -/
def LogicOp.token : LogicOp → Token
  | .and => .and
  | .or => .or

/-! ## The tokens of a predicate -/

mutual

/-- The tokens of a tree whose first value has the number `k`. -/
def tokens (d : Dialect) : ExprNode → ℕ → List Token
  | .columnRef ref, _ => [.column ref.tableName ref.columnName]
  | .literal _, k => [.param k]
  | .paramPlaceholder _, k => [.param k]
  | .binary left op right, k =>
    .lparen :: (tokens d left k ++ .op op.comparison ::
      (tokens d right (k + left.leaves.length) ++ [.rparen]))
  | .logic left op right, k =>
    .lparen :: (tokens d left k ++ op.token ::
      (tokens d right (k + left.leaves.length) ++ [.rparen]))
  | .unary .not operand, k => .not :: .lparen :: (tokens d operand k ++ [.rparen])
  | .unary .isNull operand, k => tokens d operand k ++ [.is, .null]
  | .unary .isNotNull operand, k => tokens d operand k ++ [.is, .not, .null]
  | .between expr low high isNot, k =>
    .lparen :: (tokens d expr k ++ (notIf isNot ++ .between ::
      (tokens d low (k + expr.leaves.length) ++ .and ::
        (tokens d high (k + expr.leaves.length + low.leaves.length) ++ [.rparen]))))
  | .like expr pattern isNot, k =>
    .lparen :: (tokens d expr k ++ (notIf isNot ++ .like ::
      (tokens d pattern (k + expr.leaves.length) ++ [.rparen])))
  | .inList expr values isNot, k =>
    .lparen :: (tokens d expr k ++ (notIf isNot ++ .in_ :: .lparen ::
      (tokensList d values (k + expr.leaves.length) ++ [.rparen, .rparen])))
  | .function functionName arguments, k =>
    .call (d.functionName functionName) :: (tokensList d arguments k ++ [.rparen])
  | _, _ => []
termination_by structural n => n

/-- The tokens of trees separated by commas. -/
def tokensList (d : Dialect) : List ExprNode → ℕ → List Token
  | [], _ => []
  | [n], k => tokens d n k
  | n :: m :: ns, k =>
    tokens d n k ++ .comma :: tokensList d (m :: ns) (k + n.leaves.length)
termination_by structural ns => ns

end

section Lexing

variable {d : Dialect}

attribute [local simp] tokens tokensList

@[simp] theorem write_append (d : Dialect) (t u : Text) :
    d.write (t ++ u) = d.write t ++ d.write u :=
  render_append _ t u

@[simp] theorem write_lit (d : Dialect) (s : String) : d.write (lit s) = s.toList :=
  render_lit _ s

/-- A visit records the leaves. -/
theorem visit_snd (d : Dialect) (n : ExprNode) (c : Context) :
    (visit d n c).2 = c.record n.leaves := by
  rw [visit_eq]

/-- Words and marks are read as their tokens. -/
theorem reads_compareOp (d : Dialect) (op : CompareOp) (k : ℕ) :
    Reads d.quotes k op.sql.toList k [.op op.comparison] := by
  cases d <;> cases op <;> exact fun _ => rfl

theorem reads_logicOp (d : Dialect) (op : LogicOp) (k : ℕ) :
    Reads d.quotes k op.sql.toList k [op.token] := by
  cases d <;> cases op <;> exact fun _ => rfl

theorem reads_lparen (d : Dialect) (k : ℕ) : Reads d.quotes k "(".toList k [.lparen] := by
  cases d <;> exact fun _ => rfl

theorem reads_rparen (d : Dialect) (k : ℕ) : Reads d.quotes k ")".toList k [.rparen] := by
  cases d <;> exact fun _ => rfl

/-- The text of the tree is its tokens. -/
def Spelled (d : Dialect) (n : ExprNode) : Prop :=
  ∀ c : Context, Lexes d.quotes c.paramCounter (d.write (visit d n c).1)
    (c.paramCounter + n.leaves.length) (tokens d n c.paramCounter)

theorem reads_notWord_between (d : Dialect) (isNot : Bool) (k : ℕ) :
    Reads d.quotes k (d.write (notWord isNot "BETWEEN ")) k (notIf isNot ++ [.between]) := by
  cases d <;> cases isNot <;> exact fun _ => rfl

theorem reads_notWord_like (d : Dialect) (isNot : Bool) (k : ℕ) :
    Reads d.quotes k (d.write (notWord isNot "LIKE ")) k (notIf isNot ++ [.like]) := by
  cases d <;> cases isNot <;> exact fun _ => rfl

theorem reads_notWord_in (d : Dialect) (isNot : Bool) (k : ℕ) :
    Reads d.quotes k (d.write (notWord isNot "IN (")) k (notIf isNot ++ [.in_, .lparen]) := by
  cases d <;> cases isNot <;> exact fun _ => rfl

theorem delimiter_notWord (d : Dialect) (isNot : Bool) (word : String) :
    (d.write (notWord isNot word)).head?.any isDelimiter := by
  have h : ∀ s : String, ((" " : String) ++ s).toList.head?.any isDelimiter := by
    intro s
    rw [String.toList_append]
    rfl
  cases isNot with
  | false => simpa [notWord] using h word
  | true =>
    have hnot : (" NOT " : String) ++ word = " " ++ ("NOT " ++ word) := by
      rw [← String.append_assoc]
      rfl
    simpa [notWord, hnot] using h ("NOT " ++ word)

/-- Trees are spelled as their tokens, one lemma for each kind of node. -/
theorem spelled_columnRef (ref : ColumnRef) : Spelled d (.columnRef ref) := by
  intro c
  have hrun : (visit d (.columnRef ref) c).1 = columnSql d ref := rfl
  rw [hrun, columnSql]
  split
  · rename_i htable
    simpa [write_quoteId, htable] using lexes_name (q := d.quotes) ref.columnName.toList
  · have hdot : (".".toList : List Char) = ['.'] := rfl
    simpa [write_quoteId, hdot] using
      lexes_qualified_name (q := d.quotes) ref.tableName.toList ref.columnName.toList

/-- A value is its placeholder. -/
theorem spelled_value {n : ExprNode} {s : ParameterSlot} (hs : n.slot? = some s) : Spelled d n := by
  intro c
  have hparam : Reads d.quotes c.paramCounter ['?'] (c.paramCounter + 1)
      [.param c.paramCounter] := by
    cases d <;> exact fun out => rfl
  cases n with
  | literal v =>
    rw [ExprNode.leaves_literal]
    exact hparam.lexes
  | paramPlaceholder i =>
    rw [ExprNode.leaves_paramPlaceholder]
    exact hparam.lexes
  | _ => simp [ExprNode.slot?] at hs

theorem spelled_binary {l r : ExprNode} (op : CompareOp) (hl : Spelled d l) (hr : Spelled d r) :
    Spelled d (.binary l op r) := by
  intro c
  have hrun : (visit d (.binary l op r) c).1 = lit "(" ++ (visit d l c).1 ++ lit op.sql ++
      (visit d r (c.record l.leaves)).1 ++ lit ")" := by
    rw [← visit_snd d l]
    rfl
  have hop : op.sql.toList.head?.any isDelimiter := by
    cases op <;> rfl
  have h := ((((reads_lparen d _).append_lexes (hl c)).append_reads (reads_compareOp d op _)
    hop).append_lexes (hr (c.record l.leaves))).append_reads (reads_rparen d _) rfl
  simpa [hrun, Nat.add_assoc] using h.lexes

theorem spelled_logic {l r : ExprNode} (op : LogicOp) (hl : Spelled d l) (hr : Spelled d r) :
    Spelled d (.logic l op r) := by
  intro c
  have hrun : (visit d (.logic l op r) c).1 = lit "(" ++ (visit d l c).1 ++ lit op.sql ++
      (visit d r (c.record l.leaves)).1 ++ lit ")" := by
    rw [← visit_snd d l]
    rfl
  have hop : op.sql.toList.head?.any isDelimiter := by
    cases op <;> rfl
  have h := ((((reads_lparen d _).append_lexes (hl c)).append_reads (reads_logicOp d op _)
    hop).append_lexes (hr (c.record l.leaves))).append_reads (reads_rparen d _) rfl
  simpa [hrun, Nat.add_assoc] using h.lexes

theorem spelled_unary {e : ExprNode} (op : UnaryOp) (he : Spelled d e) :
    Spelled d (.unary op e) := by
  intro c
  cases op with
  | not =>
    have hrun : (visit d (.unary .not e) c).1 = lit "NOT (" ++ (visit d e c).1 ++ lit ")" := rfl
    have hnot : Reads d.quotes c.paramCounter "NOT (".toList c.paramCounter [.not, .lparen] := by
      cases d <;> exact fun _ => rfl
    have h := (hnot.append_lexes (he c)).append_reads (reads_rparen d _) rfl
    simpa [hrun] using h.lexes
  | isNull =>
    have hrun : (visit d (.unary .isNull e) c).1 = (visit d e c).1 ++ lit " IS NULL" := rfl
    have hnull : ∀ k, Lexes d.quotes k " IS NULL".toList k [.is, .null] := by
      cases d <;> exact fun k out => ⟨_, rfl, rfl⟩
    simpa [hrun] using (he c).append_lexes (hnull _) rfl
  | isNotNull =>
    have hrun : (visit d (.unary .isNotNull e) c).1 = (visit d e c).1 ++ lit " IS NOT NULL" := rfl
    have hnull : ∀ k, Lexes d.quotes k " IS NOT NULL".toList k [.is, .not, .null] := by
      cases d <;> exact fun k out => ⟨_, rfl, rfl⟩
    simpa [hrun] using (he c).append_lexes (hnull _) rfl

theorem spelled_between {e low high : ExprNode} (isNot : Bool) (he : Spelled d e)
    (hlow : Spelled d low) (hhigh : Spelled d high) : Spelled d (.between e low high isNot) := by
  intro c
  have hrun : (visit d (.between e low high isNot) c).1 = lit "(" ++ (visit d e c).1 ++
      notWord isNot "BETWEEN " ++ (visit d low (c.record e.leaves)).1 ++ lit " AND " ++
      (visit d high ((c.record e.leaves).record low.leaves)).1 ++ lit ")" := by
    rw [← visit_snd d e, ← visit_snd d low]
    rfl
  have hand : ∀ k, Reads d.quotes k " AND ".toList k [.and] := by
    cases d <;> exact fun k out => rfl
  have h := ((((((reads_lparen d _).append_lexes (he c)).append_reads
    (reads_notWord_between d isNot _) (delimiter_notWord d isNot _)).append_lexes
    (hlow (c.record e.leaves))).append_reads (hand _) rfl).append_lexes
    (hhigh ((c.record e.leaves).record low.leaves))).append_reads (reads_rparen d _) rfl
  simpa [hrun, Nat.add_assoc] using h.lexes

theorem spelled_like {e pattern : ExprNode} (isNot : Bool) (he : Spelled d e)
    (hp : Spelled d pattern) : Spelled d (.like e pattern isNot) := by
  intro c
  have hrun : (visit d (.like e pattern isNot) c).1 = lit "(" ++ (visit d e c).1 ++
      notWord isNot "LIKE " ++ (visit d pattern (c.record e.leaves)).1 ++ lit ")" := by
    rw [← visit_snd d e]
    rfl
  have h := ((((reads_lparen d _).append_lexes (he c)).append_reads
    (reads_notWord_like d isNot _) (delimiter_notWord d isNot _)).append_lexes
    (hp (c.record e.leaves))).append_reads (reads_rparen d _) rfl
  simpa [hrun, Nat.add_assoc] using h.lexes

/-- The text of trees separated by commas. -/
theorem spelled_list : ∀ {ns : List ExprNode}, ns ≠ [] → (∀ n ∈ ns, Spelled d n) →
    ∀ c : Context, Lexes d.quotes c.paramCounter (d.write (visitList d ns c).1)
      (c.paramCounter + (ns.flatMap ExprNode.leaves).length) (tokensList d ns c.paramCounter)
  | [], h, _, _ => by contradiction
  | [n], _, hns, c => by
    have hrun : (visitList d [n] c).1 = (visit d n c).1 := rfl
    simpa [hrun] using hns n (by simp) c
  | n :: m :: ns, _, hns, c => by
    have hrun : (visitList d (n :: m :: ns) c).1 = (visit d n c).1 ++ lit ", " ++
        (visitList d (m :: ns) (c.record n.leaves)).1 := by
      rw [← visit_snd d n]
      rfl
    have hcomma : ∀ k, Reads d.quotes k ", ".toList k [.comma] := by
      cases d <;> exact fun k out => rfl
    have hrest := spelled_list (List.cons_ne_nil m ns) (fun o ho => hns o (by simp [ho]))
      (c.record n.leaves)
    have h := ((hns n (by simp) c).append_reads (hcomma _) rfl).append_lexes hrest
    simpa [hrun, Nat.add_assoc] using h

theorem spelled_inList {e : ExprNode} {vs : List ExprNode} (isNot : Bool) (hvs : vs ≠ [])
    (he : Spelled d e) (h : ∀ v ∈ vs, Spelled d v) : Spelled d (.inList e vs isNot) := by
  intro c
  obtain ⟨v, vs, rfl⟩ := List.exists_cons_of_ne_nil hvs
  have hrun : (visit d (.inList e (v :: vs) isNot) c).1 = lit "(" ++ (visit d e c).1 ++
      notWord isNot "IN (" ++ (visitList d (v :: vs) (c.record e.leaves)).1 ++ lit "))" := by
    rw [← visit_snd d e]
    rfl
  have hclose : ∀ k, Reads d.quotes k "))".toList k [.rparen, .rparen] := by
    cases d <;> exact fun k out => rfl
  have hlex := ((((reads_lparen d _).append_lexes (he c)).append_reads
    (reads_notWord_in d isNot _) (delimiter_notWord d isNot _)).append_lexes
    (spelled_list hvs h (c.record e.leaves))).append_reads (hclose _) rfl
  simpa [hrun, Nat.add_assoc] using hlex.lexes

theorem spelled_function {f : String} {args : List ExprNode}
    (hf : IsFunctionName (d.functionName f).toList) (h : ∀ n ∈ args, Spelled d n) :
    Spelled d (.function f args) := by
  intro c
  have hrun : (visit d (.function f args) c).1 =
    lit (d.functionName f) ++ lit "(" ++ (visitList d args c).1 ++ lit ")" := rfl
  cases args with
  | nil =>
    have hlex := (reads_call (q := d.quotes) (k := c.paramCounter) hf).append (reads_rparen d _)
    have hnil : (visitList d [] c).1 = [] := rfl
    simpa [hrun, hnil] using hlex.lexes
  | cons n ns =>
    have hlex := ((reads_call (q := d.quotes) (k := c.paramCounter) hf).append_lexes
      (spelled_list (List.cons_ne_nil n ns) h c)).append_reads (reads_rparen d _) rfl
    simpa [hrun, Nat.add_assoc] using hlex.lexes

/-- The text of a predicate splits into its tokens. -/
theorem spelled_of_predicate {n : ExprNode} (h : ∀ m ∈ n.visited, m.IsPredicateNode d) :
    Spelled d n := by
  induction n using ExprNode.children_induction with
  | step n ih =>
    rw [ExprNode.forall_mem_visited] at h
    obtain ⟨hn, hc⟩ := h
    have hs : ∀ m ∈ n.children, Spelled d m := fun m hm => ih m hm (hc m hm)
    cases n with
    | columnRef ref => exact spelled_columnRef ref
    | literal v => exact spelled_value rfl
    | paramPlaceholder i => exact spelled_value rfl
    | binary l op r =>
      exact spelled_binary op (hs l (by simp [ExprNode.children]))
        (hs r (by simp [ExprNode.children]))
    | logic l op r =>
      exact spelled_logic op (hs l (by simp [ExprNode.children]))
        (hs r (by simp [ExprNode.children]))
    | unary op e => exact spelled_unary op (hs e (by simp [ExprNode.children]))
    | between e low high isNot =>
      exact spelled_between isNot (hs e (by simp [ExprNode.children]))
        (hs low (by simp [ExprNode.children])) (hs high (by simp [ExprNode.children]))
    | like e p isNot =>
      exact spelled_like isNot (hs e (by simp [ExprNode.children]))
        (hs p (by simp [ExprNode.children]))
    | inList e vs isNot =>
      exact spelled_inList isNot hn (hs e List.mem_cons_self)
        fun v hv => hs v (List.mem_cons_of_mem e hv)
    | function f args => exact spelled_function hn hs
    | _ => exact hn.elim

/-- The generated text of a predicate splits into its tokens. -/
theorem lex_generateExpression {n : ExprNode} (h : ∀ m ∈ n.visited, m.IsPredicateNode d) :
    lex d.quotes (d.write (generateExpression d n).sql) = some (tokens d n 0) :=
  lex_eq_of_lexes (spelled_of_predicate h (.start 0))

end Lexing

end CppLinq
