import CppLinq.SqlPieces
import CppLinq.StatementTrees

/-!
# The names of a statement

`names` lists the identifiers of a tree in the order of its text, and `GenerateCall.names`
those of a statement, with the ones that a dialect adds itself (`[target]`, `_sub`). Every
statement is composed of them (`generate_composed`) : wherever the generator writes a name,
what it writes next is no closing quote.

A step of the generator is followed by what it returns (`Returns`), with a rule for `pure`
and one for `bind`.
-/

namespace CppLinq

/-! ## Names of trees -/

/-- The names of a column. -/
def ColumnRef.names (ref : ColumnRef) : List String :=
  if ref.tableName = "" then [ref.columnName] else [ref.tableName, ref.columnName]

namespace ExprNode

/-- The names in the call of a window function. The ranking functions have none. -/
def windowNames (argNames : List String) : WindowFunctionType → List String
  | .rowNumber | .rank | .denseRank => []
  | _ => argNames

mutual

/-- The names of a tree, in the order of its text. -/
def names (d : Dialect) : ExprNode → List String
  | .columnRef ref => ref.names
  | .literal _ | .paramPlaceholder _ | .currentTimestamp | .currentDate => []
  | .binary left _ right => names d left ++ names d right
  | .logic left _ right => names d left ++ names d right
  | .unary _ operand => names d operand
  | .between expr low high _ => names d expr ++ (names d low ++ names d high)
  | .like expr pattern _ => names d expr ++ names d pattern
  | .inList expr values _ => if values.isEmpty then [] else names d expr ++ namesList d values
  | .function _ arguments => namesList d arguments
  | .subquery ⟨tableName, columns, where_, _⟩ => columns ++ tableName :: namesOption d where_
  | .existsSub ⟨tableName, columns, where_, _⟩ _ => columns ++ tableName :: namesOption d where_
  | .inSubquery expr ⟨tableName, columns, where_, _⟩ _ =>
    names d expr ++ (columns ++ tableName :: namesOption d where_)
  | .extract _ expr => names d expr
  | .dateAdd expr days =>
    if d = .mssql then names d days ++ names d expr else names d expr ++ names d days
  | .window func arg partitionClauses orderClauses =>
    windowNames (namesOption d arg) func ++
      (namesList d partitionClauses ++ namesOrderBy d orderClauses)
termination_by structural e => e

/-- Those of a tree that may be missing. -/
def namesOption (d : Dialect) : Option ExprNode → List String
  | none => []
  | some e => names d e
termination_by structural e => e

/-- Those of several trees. -/
def namesList (d : Dialect) : List ExprNode → List String
  | [] => []
  | e :: es => names d e ++ namesList d es
termination_by structural es => es

/-- Those of an ordering. -/
def namesOrderBy (d : Dialect) : List (ExprNode × SortDir) → List String
  | [] => []
  | (e, _) :: os => names d e ++ namesOrderBy d os
termination_by structural os => os

end

/-- The name of the function that the node calls. -/
def functionName? : ExprNode → Option String
  | .function functionName _ => some functionName
  | _ => none

end ExprNode

/-! ## What a step returns -/

/-- Every text that `g` returns satisfies `P`. -/
def Returns (g : Gen Text) (P : Text → Prop) : Prop :=
  ∀ c, P (g c).1

/-- A text that is not generated holds what it holds. -/
theorem returns_pure {t : Text} {P : Text → Prop} (h : P t) : Returns (pure t) P :=
  fun _ => h

/-- What holds of both parts of a generation holds of the whole. -/
theorem Returns.bind {g : Gen Text} {h : Text → Gen Text} {P Q : Text → Prop} (hg : Returns g P)
    (hh : ∀ t, P t → Returns (h t) Q) : Returns (g >>= h) Q :=
  fun c => hh _ (hg c) _

theorem Returns.and {g : Gen Text} {P Q : Text → Prop} (hP : Returns g P) (hQ : Returns g Q) :
    Returns g fun t => P t ∧ Q t :=
  fun c => ⟨hP c, hQ c⟩

theorem Returns.mono {g : Gen Text} {P Q : Text → Prop} (hg : Returns g P)
    (h : ∀ t, P t → Q t) : Returns g Q :=
  fun c => h _ (hg c)

/-! ## Words -/

section Words

variable {d : Dialect} {free : Char → Prop} {t : Text} {names : List String}

theorem CompareOp.clean_sql (op : CompareOp) : (op.sql.toList.all isClean) = true := by
  cases op <;> decide

theorem CompareOp.led_sql (op : CompareOp) : Led d (lit op.sql ++ t) := by
  cases op <;> exact led_words (by decide)

theorem LogicOp.clean_sql (op : LogicOp) : (op.sql.toList.all isClean) = true := by
  cases op <;> decide

theorem LogicOp.led_sql (op : LogicOp) : Led d (lit op.sql ++ t) := by
  cases op <;> exact led_words (by decide)

theorem SortDir.clean_sql (dir : SortDir) : (dir.sql.toList.all isClean) = true := by
  cases dir <;> decide

theorem SortDir.led_sql (dir : SortDir) : Led d (lit dir.sql ++ t) := by
  cases dir <;> exact led_words (by decide)

theorem SetOpType.clean_sql (op : SetOpType) : (op.sql.toList.all isClean) = true := by
  cases op <;> decide

theorem SetOpType.led_sql (op : SetOpType) : Led d (lit op.sql ++ t) := by
  cases op <;> exact led_words (by decide)

/-- `NOT` and a word add no name. -/
theorem Composed.notWord (word : String) (hword : (word.toList.all isClean) = true)
    (isNot : Bool) (h : Composed d free t names) :
    Composed d free (notWord isNot word ++ t) names := by
  have hsome : ∀ before : String, (before.toList.all isClean) = true →
      ((before ++ word).toList.all isClean) = true := by
    intro before hbefore
    rw [String.toList_append, List.all_append, hbefore, hword, Bool.and_self]
  cases isNot
  · exact h.words (hsome " " (by decide))
  · exact h.words (hsome " NOT " (by decide))

theorem led_notWord (isNot : Bool) (word : String) : Led d (notWord isNot word ++ t) := by
  have hled : ∀ before : String, (before.toList.head?.any fun c => !isClosing c) = true →
      Led d (lit (before ++ word) ++ t) := by
    intro before hbefore
    rw [lit_append, List.append_assoc]
    exact led_words hbefore
  cases isNot
  · exact hled " " (by decide)
  · exact hled " NOT " (by decide)

/-- A quoted name is one name more, where it can end. -/
theorem Composed.quoteId (n : String) (hled : Led d t) (h : Composed d free t names) :
    Composed d free (d.quoteId n ++ t) (n :: names) :=
  .name hled h

/-- A column list holds the names of its columns. -/
theorem composed_columnList (columns : List String) :
    Composed d free (d.columnList columns) columns :=
  (composed_joinSep (by decide) (by decide) fun n _ => composed_quoteId n).of_eq
    (List.flatMap_singleton' columns)

theorem Composed.distinctWord (isDistinct : Bool) (h : Composed d free t names) :
    Composed d free (distinctWord isDistinct ++ t) names := by
  cases isDistinct
  · exact h.words (by decide)
  · exact h.words (by decide)

/-- A projection and its table before the rest. -/
theorem Composed.selectFrom (whenEmpty : String) (hword : (whenEmpty.toList.all isClean) = true)
    (isDistinct : Bool) (columns : List String) (tableName : String) (hled : Led d t)
    (h : Composed d free t names) :
    Composed d free (selectFrom d whenEmpty isDistinct columns tableName ++ t)
      (columns ++ tableName :: names) := by
  have hlist : Composed d free (selectList d whenEmpty columns) columns := by
    unfold selectList
    split
    · rename_i hempty
      rw [List.isEmpty_iff.mp hempty]
      exact composed_lit hword
    · exact composed_columnList columns
  have hrest : Composed d free (selectList d whenEmpty columns ++ (lit " FROM " ++
      (d.quoteId tableName ++ t))) (columns ++ tableName :: names) :=
    hlist.append ((Composed.name hled h).words (by decide)) (led_words (by decide))
  simp only [CppLinq.selectFrom, List.append_assoc]
  exact hrest.distinctWord isDistinct

/-- A column reference holds its names. -/
theorem composed_columnSql (ref : ColumnRef) : Composed d free (columnSql d ref) ref.names := by
  unfold columnSql ColumnRef.names
  split
  · exact composed_quoteId _
  · rw [List.append_assoc]
    exact .name (led_words (by decide)) ((composed_quoteId _).words (by decide))

/-- No dialect spoils a function's name. -/
theorem Dialect.cleanUnless_functionName {func : String} (h : CleanUnless free func)
    (d : Dialect) : CleanUnless free (d.functionName func) := by
  cases d with
  | mssql =>
    simp only [functionName]
    split
    · exact cleanUnless_of_all (by decide)
    split
    · exact cleanUnless_of_all (by decide)
    · exact h
  | mysql =>
    simp only [functionName]
    split
    · exact cleanUnless_of_all (by decide)
    split
    · exact cleanUnless_of_all (by decide)
    · exact h
  | _ => exact h

theorem Dialect.clean_currentTimestampFunc (d : Dialect) :
    (d.currentTimestampFunc.toList.all isClean) = true := by
  cases d <;> decide

theorem Dialect.clean_currentDateFunc (d : Dialect) :
    (d.currentDateFunc.toList.all isClean) = true := by
  cases d <;> decide

/-- `strftime` with a format, around an operand. -/
theorem composed_strftimePart {format : String}
    (hformat : (format.toList.all fun c => c != '\'') = true) (h : Composed d free t names) :
    Composed d free (Dialect.strftimePart format t) names := by
  have hopen : lit "CAST(strftime('" = lit "CAST(strftime(" ++ lit "'" := by
    simp only [← lit_append, String.reduceAppend]
  have hclose : lit "', " = lit "'" ++ lit ", " := by
    simp only [← lit_append, String.reduceAppend]
  have ht : Composed d free (t ++ lit ") AS INTEGER)") (names ++ []) :=
    h.append (composed_lit (by decide)) (led_lit (by decide))
  rw [List.append_nil] at ht
  simp only [Dialect.strftimePart, lit_append, hopen, hclose, List.append_assoc]
  exact ((ht.words (by decide)).constant_append hformat).words (by decide)

/-- An operand between two literal texts. -/
theorem Composed.between (before after : String) (hbefore : (before.toList.all isClean) = true)
    (hafter : (after.toList.all isClean) = true)
    (hled : (after.toList.head?.any fun c => !isClosing c) = true) (h : Composed d free t names) :
    Composed d free (lit before ++ t ++ lit after) names := by
  have ht := (h.append (composed_lit hafter) (led_lit hled)).words hbefore
  rwa [List.append_nil, ← List.append_assoc] at ht

/-- The end of an Oracle timestamp conversion, before the rest. -/
theorem Composed.oracleFormat (h : Composed d free t names) :
    Composed d free (lit ", 1, 19), 'YYYY-MM-DD HH24:MI:SS')" ++ t) names := by
  have hsplit : lit ", 1, 19), 'YYYY-MM-DD HH24:MI:SS')" =
      lit ", 1, 19), " ++ (lit "'" ++ (lit "YYYY-MM-DD HH24:MI:SS" ++ (lit "'" ++ lit ")"))) := by
    simp only [← lit_append, String.reduceAppend]
  simp only [hsplit, List.append_assoc]
  exact ((h.words (by decide)).constant_append (by decide)).words (by decide)

/-- The part of a date holds the names of the date. -/
theorem composed_extractPartFunc (part : DatePart) (h : Composed d free t names) :
    Composed d free (d.extractPartFunc part.sql t) names := by
  cases d with
  | sqlite => cases part <;> exact composed_strftimePart (by decide) h
  | postgres => cases part <;> exact h.between _ _ (by decide) (by decide) (by decide)
  | mssql => cases part <;> exact h.between _ _ (by decide) (by decide) (by decide)
  | mysql => cases part <;> exact h.between _ _ (by decide) (by decide) (by decide)
  | informix => cases part <;> exact h.between _ _ (by decide) (by decide) (by decide)
  | oracle =>
    have hend : Composed .oracle free (lit ")") [] := composed_lit (by decide)
    have hrest := hend.oracleFormat
    have ht := h.append hrest (led_words (by decide))
    rw [List.append_nil] at ht
    simp only [Dialect.extractPartFunc, List.append_assoc]
    cases part <;> exact ht.words (by decide)

/-- Two operands with literal texts around them. -/
theorem Composed.between_two {u : Text} {names' : List String} {before mid after : String}
    (h : Composed d free t names) (h' : Composed d free u names')
    (hbefore : (before.toList.all isClean) = true) (hmid : (mid.toList.all isClean) = true)
    (hledMid : (mid.toList.head?.any fun c => !isClosing c) = true)
    (hafter : Composed d free (lit after) [])
    (hled : (after.toList.head?.any fun c => !isClosing c) = true) :
    Composed d free (lit before ++ t ++ lit mid ++ u ++ lit after) (names ++ names') := by
  have hu := h'.append hafter (led_lit hled)
  rw [List.append_nil] at hu
  simp only [List.append_assoc]
  exact (h.append (hu.words hmid) (led_words hledMid)).words hbefore

/-- The unit of days that SQLite and PostgreSQL append to a number. -/
theorem composed_days {before after : String} (hbefore : (before.toList.all isClean) = true)
    (hafter : (after.toList.all isClean) = true) :
    Composed d free (lit before ++ (lit "'" ++ (lit " days" ++ (lit "'" ++ lit after)))) [] :=
  ((composed_lit hafter).constant_append (by decide)).words hbefore

/-- A date with days added holds the names of both, which SQL Server writes the other way round. -/
theorem composed_dateAddDaysFunc {u : Text} {names' : List String}
    (h : Composed d free t names) (h' : Composed d free u names') :
    Composed d free (d.dateAddDaysFunc t u)
      (if d = .mssql then names' ++ names else names ++ names') := by
  cases d with
  | sqlite =>
    have hdays : lit ") || ' days')" =
        lit ") || " ++ (lit "'" ++ (lit " days" ++ (lit "'" ++ lit ")"))) := by
      simp only [← lit_append, String.reduceAppend]
    exact h.between_two h' (by decide) (by decide) (by decide)
      (hdays ▸ composed_days (by decide) (by decide)) (by decide)
  | postgres =>
    have hdays : lit " || ' days')::interval)" =
        lit " || " ++ (lit "'" ++ (lit " days" ++ (lit "'" ++ lit ")::interval)"))) := by
      simp only [← lit_append, String.reduceAppend]
    exact h.between_two h' (by decide) (by decide) (by decide)
      (hdays ▸ composed_days (by decide) (by decide)) (by decide)
  | mssql =>
    exact h'.between_two h (by decide) (by decide) (by decide) (composed_lit (by decide))
      (by decide)
  | mysql | informix =>
    exact h.between_two h' (by decide) (by decide) (by decide) (composed_lit (by decide))
      (by decide)
  | oracle =>
    have hday : lit ", 'DAY'))" =
        lit ", " ++ (lit "'" ++ (lit "DAY" ++ (lit "'" ++ lit "))"))) := by
      simp only [← lit_append, String.reduceAppend]
    have hmid : lit ", 1, 19), 'YYYY-MM-DD HH24:MI:SS') + NUMTODSINTERVAL(" =
        lit ", 1, 19), 'YYYY-MM-DD HH24:MI:SS')" ++ lit " + NUMTODSINTERVAL(" := by
      simp only [← lit_append, String.reduceAppend]
    have hend : Composed .oracle free (lit ", 'DAY'))") [] := by
      rw [hday]
      exact ((composed_lit (by decide)).constant_append (by decide)).words (by decide)
    have hu := h'.append hend (led_lit (by decide))
    rw [List.append_nil] at hu
    have hrest := (hu.words (s := " + NUMTODSINTERVAL(") (by decide)).oracleFormat
    simp only [Dialect.dateAddDaysFunc, hmid, List.append_assoc]
    exact (h.append hrest (led_words (by decide))).words (by decide)

end Words

/-! ## Every tree is composed of its names -/

section Trees

variable {d : Dialect} {free : Char → Prop}

/-- The name of the function that the node calls is clean, unless it is free. -/
def ExprNode.CleanCall (free : Char → Prop) (n : ExprNode) : Prop :=
  ∀ f ∈ n.functionName?, CleanUnless free f

/-- A tree that may be missing, with words around it. -/
theorem returns_visitOption {before whenNone : String}
    (hbefore : (before.toList.all isClean) = true)
    (hnone : (whenNone.toList.all isClean) = true) {e : Option ExprNode}
    (h : ∀ n ∈ e.toList, Returns (visit d n) (Composed d free · (n.names d))) :
    Returns (visitOption d before whenNone e) (Composed d free · (ExprNode.namesOption d e)) := by
  cases e with
  | none => exact returns_pure (composed_lit hnone)
  | some e => exact (h e (by simp)).bind fun t ht => returns_pure (ht.words hbefore)

/-- A condition is empty or begins with a space. -/
theorem led_visitOption {before : String}
    (hbefore : (before.toList.head?.any fun c => !isClosing c) = true) (e : Option ExprNode) :
    Returns (visitOption d before "" e) (Led d) := by
  cases e with
  | none => exact returns_pure led_nil
  | some e => exact fun c => led_words hbefore

/-- Trees with commas between them. -/
theorem returns_visitList :
    ∀ {es : List ExprNode}, (∀ n ∈ es, Returns (visit d n) (Composed d free · (n.names d))) →
      Returns (visitList d es) (Composed d free · (ExprNode.namesList d es))
  | [], _ => returns_pure .nil
  | [e], h => (h e (by simp)).mono fun _ ht => ht.of_eq (List.append_nil _).symm
  | e :: f :: es, h =>
    have hrest := returns_visitList fun n hn => h n (List.mem_cons_of_mem e hn)
    (h e (by simp)).bind fun _ ht => hrest.bind fun _ hu => returns_pure (by
      rw [List.append_assoc]
      exact ht.append (hu.words (by decide)) (led_words (by decide)))

/-- Trees with directions behind them. -/
theorem returns_visitOrderBy :
    ∀ {os : List OrderByExpr},
      (∀ n ∈ os.map Prod.fst, Returns (visit d n) (Composed d free · (n.names d))) →
      Returns (visitOrderBy d os) (Composed d free · (ExprNode.namesOrderBy d os))
  | [], _ => returns_pure .nil
  | [(e, dir)], h => (h e (by simp)).bind fun _ ht =>
    returns_pure (ht.append (composed_lit dir.clean_sql) (by
      have hled := dir.led_sql (d := d) (t := [])
      rwa [List.append_nil] at hled))
  | (e, dir) :: o :: os, h =>
    have hrest := returns_visitOrderBy fun n hn => h n (List.mem_cons_of_mem e hn)
    (h e (by simp)).bind fun _ ht => hrest.bind fun _ hu => returns_pure (by
      simp only [List.append_assoc]
      exact ht.append ((hu.words (by decide)).words dir.clean_sql) dir.led_sql)

/-- The call of a window function. -/
theorem returns_windowCall {func : WindowFunctionType} {arg : Option ExprNode}
    (h : ∀ n ∈ (ExprNode.windowArg func arg).toList,
      Returns (visit d n) (Composed d free · (n.names d))) :
    Returns (windowCall (fun whenNone => visitOption d "" whenNone arg) func)
      (Composed d free · (ExprNode.windowNames (ExprNode.namesOption d arg) func)) := by
  cases func with
  | rowNumber | rank | denseRank => exact returns_pure (composed_lit (by decide))
  | _ =>
    exact (returns_visitOption (by decide) (by decide) h).bind fun _ ht =>
      returns_pure (ht.between _ _ (by decide) (by decide) (by decide))

/-- The text is composed of the names, and may follow a name. -/
def Clause (d : Dialect) (free : Char → Prop) (names : List String) (t : Text) : Prop :=
  Composed d free t names ∧ Led d t

/-- A clause over a list, or what stands for it without items. -/
theorem Returns.listClause {α : Type*} {whenEmpty : Text} (before after : String)
    {items : List α} {g : Gen Text} {names : List String}
    (hg : Returns g (Composed d free · names)) (hnames : items = [] → names = [])
    (hempty : Clause d free [] whenEmpty) (hbefore : (before.toList.all isClean) = true)
    (hhead : (before.toList.head?.any fun c => !isClosing c) = true)
    (hafter : Clause d free [] (lit after)) :
    Returns (CppLinq.listClause whenEmpty (lit before) (lit after) items g)
      (Clause d free names) := by
  refine hg.bind fun t ht => returns_pure ?_
  cases items with
  | nil =>
    rw [hnames rfl]
    exact hempty
  | cons =>
    have hrest := (ht.append hafter.1 hafter.2).words hbefore
    rw [List.append_nil, ← List.append_assoc] at hrest
    refine ⟨hrest, ?_⟩
    change Led d (lit before ++ t ++ lit after)
    rw [List.append_assoc]
    exact led_words hhead

/-- A condition is composed of its names, and is led. -/
theorem returns_where {e : Option ExprNode}
    (h : ∀ n ∈ e.toList, Returns (visit d n) (Composed d free · (n.names d))) :
    Returns (visitOption d " WHERE " "" e) (Clause d free (ExprNode.namesOption d e)) :=
  (returns_visitOption (by decide) (by decide) h).and (led_visitOption (by decide) e)

/-- A subquery between its words : a projection, a table and a condition. -/
theorem composed_subquery (before after whenEmpty : String) (isDistinct : Bool)
    (columns : List String) (tableName : String) {t : Text} {names : List String}
    (hbefore : (before.toList.all isClean) = true) (hword : (whenEmpty.toList.all isClean) = true)
    (hafter : (after.toList.all isClean) = true)
    (hhead : (after.toList.head?.any fun c => !isClosing c) = true)
    (h : Clause d free names t) :
    Composed d free (lit before ++ (selectFrom d whenEmpty isDistinct columns tableName ++
      (t ++ lit after))) (columns ++ tableName :: names) := by
  have ht := h.1.append (composed_lit hafter) (led_lit hhead)
  rw [List.append_nil] at ht
  exact (ht.selectFrom whenEmpty hword isDistinct columns tableName
    (h.2.append (led_lit hhead))).words
    hbefore

/-- A node is composed of its names if its subtrees are of theirs. -/
theorem composed_of_children {n : ExprNode} (hclean : n.CleanCall free)
    (h : ∀ m ∈ n.children, Returns (visit d m) (Composed d free · (m.names d))) :
    Returns (visit d n) (Composed d free · (n.names d)) := by
  cases n with
  | columnRef ref => exact returns_pure (composed_columnSql ref)
  | literal | paramPlaceholder => exact fun c => composed_placeholder c.paramCounter
  | currentTimestamp => exact returns_pure (composed_lit d.clean_currentTimestampFunc)
  | currentDate => exact returns_pure (composed_lit d.clean_currentDateFunc)
  | binary l op r =>
    refine (h l (by simp [ExprNode.children])).bind fun t ht =>
      (h r (by simp [ExprNode.children])).bind fun u hu => returns_pure ?_
    exact ht.between_two hu (by decide) op.clean_sql (by cases op <;> decide)
      (composed_lit (by decide)) (by decide)
  | logic l op r =>
    refine (h l (by simp [ExprNode.children])).bind fun t ht =>
      (h r (by simp [ExprNode.children])).bind fun u hu => returns_pure ?_
    exact ht.between_two hu (by decide) op.clean_sql (by cases op <;> decide)
      (composed_lit (by decide)) (by decide)
  | unary op e =>
    have he := h e (by simp [ExprNode.children])
    cases op with
    | not => exact he.bind fun t ht =>
        returns_pure (ht.between _ _ (by decide) (by decide) (by decide))
    | isNull | isNotNull =>
      exact he.bind fun t ht => returns_pure ((ht.append (composed_lit (by decide))
        (led_lit (by decide))).of_eq (List.append_nil _))
  | between e low high isNot =>
    refine (h e (by simp [ExprNode.children])).bind fun t ht =>
      (h low (by simp [ExprNode.children])).bind fun u hu =>
      (h high (by simp [ExprNode.children])).bind fun v hv => returns_pure ?_
    have hrest := hv.append (composed_lit (s := ")") (by decide)) (led_lit (by decide))
    have hlow := hu.append (hrest.words (s := " AND ") (by decide)) (led_words (by decide))
    have hall := (ht.append (hlow.notWord "BETWEEN " (by decide) isNot)
      (led_notWord isNot _)).words (s := "(") (by decide)
    rw [List.append_nil] at hall
    simp only [List.append_assoc] at hall ⊢
    exact hall
  | like e pattern isNot =>
    refine (h e (by simp [ExprNode.children])).bind fun t ht =>
      (h pattern (by simp [ExprNode.children])).bind fun u hu => returns_pure ?_
    have hrest := hu.append (composed_lit (s := ")") (by decide)) (led_lit (by decide))
    have hall := (ht.append (hrest.notWord "LIKE " (by decide) isNot)
      (led_notWord isNot _)).words (s := "(") (by decide)
    rw [List.append_nil] at hall
    simp only [List.append_assoc] at hall ⊢
    exact hall
  | inList e values isNot =>
    refine (h e (by simp [ExprNode.children])).bind fun t ht => ?_
    cases values with
    | nil => cases isNot <;> exact returns_pure (composed_lit (by decide))
    | cons v vs =>
      refine (returns_visitList fun m hm => h m (List.mem_cons_of_mem e hm)).bind fun u hu =>
        returns_pure ?_
      have hrest := hu.append (composed_lit (s := "))") (by decide)) (led_lit (by decide))
      have hall := (ht.append (hrest.notWord "IN (" (by decide) isNot)
        (led_notWord isNot _)).words (s := "(") (by decide)
      rw [List.append_nil] at hall
      simp only [List.append_assoc] at hall ⊢
      exact hall
  | function f args =>
    refine (returns_visitList h).bind fun t ht => returns_pure ?_
    have hargs := ht.between "(" ")" (by decide) (by decide) (by decide)
    have hall := hargs.free_words (d.cleanUnless_functionName (hclean f rfl))
    simp only [List.append_assoc] at hall ⊢
    exact hall
  | subquery sub =>
    obtain ⟨table, columns, w, distinct⟩ := sub
    refine (returns_where h).bind fun t ht => returns_pure ?_
    have hall := composed_subquery "(SELECT " ")" "*" distinct columns table (by decide) (by decide)
      (by decide) (by decide) ht
    simp only [List.append_assoc] at hall ⊢
    exact hall
  | existsSub sub isNot =>
    obtain ⟨table, columns, w, distinct⟩ := sub
    refine (returns_where h).bind fun t ht => returns_pure ?_
    have hall : ∀ before : String, (before.toList.all isClean) = true → _ := fun before hbefore =>
      composed_subquery before ")" "1" distinct columns table hbefore (by decide) (by decide)
        (by decide) ht
    simp only [List.append_assoc] at hall ⊢
    cases isNot
    · exact hall "EXISTS (SELECT " (by decide)
    · exact hall "NOT EXISTS (SELECT " (by decide)
  | inSubquery e sub isNot =>
    obtain ⟨table, columns, w, distinct⟩ := sub
    refine (h e (by simp [ExprNode.children])).bind fun t ht =>
      (returns_where fun m hm => h m (List.mem_cons_of_mem e hm)).bind fun u hu => returns_pure ?_
    have hrest := hu.1.append (composed_lit (s := "))") (by decide)) (led_lit (by decide))
    rw [List.append_nil] at hrest
    have hsub := hrest.selectFrom "*" (by decide) distinct columns table
      (hu.2.append (led_lit (by decide)))
    have hall := (ht.append (hsub.notWord "IN (SELECT " (by decide) isNot)
      (led_notWord isNot _)).words (s := "(") (by decide)
    simp only [List.append_assoc] at hall ⊢
    exact hall
  | extract part e =>
    exact (h e (by simp [ExprNode.children])).bind fun t ht =>
      returns_pure (composed_extractPartFunc part ht)
  | dateAdd e days =>
    exact (h e (by simp [ExprNode.children])).bind fun t ht =>
      (h days (by simp [ExprNode.children])).bind fun u hu =>
      returns_pure (composed_dateAddDaysFunc ht hu)
  | window func arg ps os =>
    have harg := fun m hm => h m (List.mem_append_left _ (List.mem_append_left _ hm))
    have hps := fun m hm => h m (List.mem_append_left _ (List.mem_append_right _ hm))
    have hos := fun m hm => h m (List.mem_append_right _ hm)
    have hnil : Clause d free [] [] := ⟨.nil, led_nil⟩
    have hpartition : Returns
        (CppLinq.listClause [] (lit "PARTITION BY ") (lit "") ps (visitList d ps))
        (Clause d free (ExprNode.namesList d ps)) :=
      (returns_visitList hps).listClause _ _ (by rintro rfl; rfl) hnil (by decide) (by decide) hnil
    have horder : ∀ before : String, (before.toList.all isClean) = true →
        (before.toList.head?.any fun c => !isClosing c) = true →
        Returns (CppLinq.listClause [] (lit before) (lit "") os (visitOrderBy d os))
          (Clause d free (ExprNode.namesOrderBy d os)) := fun before hbefore hhead =>
      (returns_visitOrderBy hos).listClause _ _ (by rintro rfl; rfl) hnil hbefore hhead hnil
    refine (returns_windowCall harg).bind fun t ht => hpartition.bind fun u hu => ?_
    refine Returns.bind (P := Clause d free (ExprNode.namesOrderBy d os)) ?_
      fun v hv => returns_pure ?_
    · cases ps with
      | nil => exact horder "ORDER BY " (by decide) (by decide)
      | cons => exact horder " ORDER BY " (by decide) (by decide)
    have hend := hv.1.append (composed_lit (s := ")") (by decide)) (led_lit (by decide))
    rw [List.append_nil] at hend
    have hrest := hu.1.append hend (hv.2.append (led_lit (by decide)))
    have hall := ht.append (hrest.words (s := " OVER (") (by decide)) (led_words (by decide))
    simp only [List.append_assoc] at hall ⊢
    exact hall

/-- Visiting a tree writes its names. -/
theorem visit_composed (n : ExprNode) (hclean : ∀ m ∈ n.visited, m.CleanCall free) :
    Returns (visit d n) (Composed d free · (n.names d)) := by
  induction n using ExprNode.children_induction with
  | step n ih =>
    rw [ExprNode.forall_mem_visited] at hclean
    exact composed_of_children hclean.1 fun m hm => ih m hm (hclean.2 m hm)

end Trees

/-! ## Names of statements -/

/-- The names of a common table expression. -/
def CteClause.names (d : Dialect) (c : CteClause) : List String :=
  c.name :: (c.subquery.selectColumns ++
    c.subquery.tableName :: ExprNode.namesOption d c.subquery.where_)

/-- The names of a join. -/
def JoinClause.names (d : Dialect) (j : JoinClause) : List String :=
  j.tableName :: j.onCondition.names d

/-- The names of a set operation. -/
def SetOpClause.names (d : Dialect) (op : SetOpClause) : List String :=
  op.columns ++ op.tableName :: ExprNode.namesOption d op.where_

/-- The names in the ordering of a set operation : a column goes by its name alone. -/
def setOpOrderNames (d : Dialect) : OrderByExpr → List String
  | (.columnRef ref, _) => [ref.columnName]
  | (e, _) => e.names d

/-- The names of an assignment. -/
def AssignExpr.names (d : Dialect) (a : AssignExpr) : List String :=
  assignedColumn a.column :: a.value.names d

/-- The name of a column that has one. -/
def namedColumn : Option String → List String
  | some column => if column = "" then [] else [column]
  | none => []

/-- The column that an insert returns, where the dialect can. -/
def Dialect.returnedNames : Dialect → Option String → List String
  | .sqlite, column | .postgres, column | .mssql, column => namedColumn column
  | _, _ => []

/-- The names of a MERGE after its key word, the aliases written `target` and `source`. -/
def mergeNames (target source insertColumns conflictColumns updateColumns : List String) :
    List String :=
  let pair c := target ++ c :: (source ++ [c])
  conflictColumns.flatMap pair ++ (updateColumns.flatMap pair ++ (insertColumns ++
    insertColumns.flatMap fun c => source ++ [c]))

/-- The names of an upsert. -/
def Dialect.upsertNames (tableName : String)
    (insertColumns conflictColumns updateColumns : List String) : Dialect → List String
  | .sqlite | .postgres =>
    tableName :: (insertColumns ++ (conflictColumns ++ updateColumns.flatMap fun c => [c, c]))
  | .mysql =>
    tableName :: (insertColumns ++
      match updateColumns, conflictColumns with
      | [], [] => insertColumns.head?.toList.flatMap fun c => [c, c]
      | [], c :: _ => [c, c]
      | _ :: _, _ => updateColumns.flatMap fun c => [c, c])
  | .mssql =>
    tableName :: "target" :: "source" :: (insertColumns ++
      mergeNames ["target"] ["source"] insertColumns conflictColumns updateColumns)
  | .informix =>
    tableName :: (insertColumns ++ "informix" ::
      mergeNames [] [] insertColumns conflictColumns updateColumns)
  | .oracle =>
    if insertColumns.isEmpty || conflictColumns.isEmpty then []
    else tableName :: (insertColumns ++ mergeNames [] [] insertColumns conflictColumns
      (updateColumns.filter fun c => !conflictColumns.contains c))

/-- The names of a statement, in the order of its text. -/
def GenerateCall.names (d : Dialect) : GenerateCall → List String
  | .cteSelect ctes table columns w order _ _ _ group having =>
    ctes.flatMap (CteClause.names d) ++ (columns ++ table :: (ExprNode.namesOption d w ++
      (ExprNode.namesList d group ++ (ExprNode.namesOption d having ++
        ExprNode.namesOrderBy d order))))
  | .select table columns w order _ _ _ group having =>
    columns ++ table :: (ExprNode.namesOption d w ++ (ExprNode.namesList d group ++
      (ExprNode.namesOption d having ++ ExprNode.namesOrderBy d order)))
  | .joinedSelect table columns joins joined w order _ _ _ =>
    ((table, columns) :: joined).flatMap (fun t => t.2.flatMap fun c => [t.1, c]) ++
      table :: (joins.flatMap (JoinClause.names d) ++ (ExprNode.namesOption d w ++
        ExprNode.namesOrderBy d order))
  | .joinedCount table joins w =>
    table :: (joins.flatMap (JoinClause.names d) ++ ExprNode.namesOption d w)
  | .setOperation table columns w _ ops order _ _ =>
    columns ++ table :: (ExprNode.namesOption d w ++ (ops.flatMap (SetOpClause.names d) ++
      order.flatMap (setOpOrderNames d)))
  | .setOperationCount table columns w _ ops =>
    columns ++ table ::
      (ExprNode.namesOption d w ++ (ops.flatMap (SetOpClause.names d) ++ ["_sub"]))
  | .insert table columns _ returning => table :: (columns ++ d.returnedNames returning)
  | .upsert table ins _ conflict upd => d.upsertNames table ins conflict upd
  | .update table assignments w =>
    table :: (assignments.flatMap (AssignExpr.names d) ++ ExprNode.namesOption d w)
  | .updateValues table assignments w =>
    table :: (assignments.map Prod.fst ++ ExprNode.namesOption d w)
  | .delete table w => table :: ExprNode.namesOption d w
  | .count table w isDistinct column =>
    (if isDistinct then column.toList else []) ++ table :: ExprNode.namesOption d w
  | .aggregate _ table column w =>
    (if column = "*" then [] else [column]) ++ table :: ExprNode.namesOption d w
  | .expression node => node.names d

/-- The function names of a statement. -/
def GenerateCall.functionNames (call : GenerateCall) : List String :=
  (call.trees.flatMap ExprNode.visited).filterMap ExprNode.functionName? ++
    match call with
    | .aggregate func _ _ _ => [func]
    | _ => []

/-- The join types of a statement. -/
def GenerateCall.joinTypes : GenerateCall → List String
  | .joinedSelect _ _ joins _ _ _ _ _ _ => joins.map JoinClause.joinType
  | .joinedCount _ joins _ => joins.map JoinClause.joinType
  | _ => []

/-! ## Every statement is composed of its names -/

section Clauses

variable {d : Dialect} {free : Char → Prop}

/-- The functions that the trees call have clean names, unless these are free. -/
def CleanCalls (free : Char → Prop) (ns : List ExprNode) : Prop :=
  ∀ n ∈ ns, ∀ m ∈ n.visited, m.CleanCall free

/-- Every tree of a clean call is written with its names. -/
theorem CleanCalls.visit {ns : List ExprNode} (h : CleanCalls free ns) :
    ∀ n ∈ ns, Returns (visit d n) (Composed d free · (n.names d)) :=
  fun n hn => visit_composed n (h n hn)

theorem CleanCalls.left {ns ms : List ExprNode} (h : CleanCalls free (ns ++ ms)) :
    CleanCalls free ns :=
  fun n hn => h n (List.mem_append_left ms hn)

theorem CleanCalls.right {ns ms : List ExprNode} (h : CleanCalls free (ns ++ ms)) :
    CleanCalls free ms :=
  fun n hn => h n (List.mem_append_right ns hn)

theorem CleanCalls.tail {n : ExprNode} {ns : List ExprNode} (h : CleanCalls free (n :: ns)) :
    CleanCalls free ns :=
  fun m hm => h m (List.mem_cons_of_mem n hm)

/-- Clauses follow each other. -/
theorem Clause.append {t u : Text} {names names' : List String} (ht : Clause d free names t)
    (hu : Clause d free names' u) : Clause d free (names ++ names') (t ++ u) :=
  ⟨ht.1.append hu.1 hu.2, ht.2.append hu.2⟩

theorem clause_nil : Clause d free [] [] :=
  ⟨.nil, led_nil⟩

/-- A word without quotes is a clause without names. -/
theorem clause_lit {s : String} (hs : (s.toList.all isClean) = true)
    (hhead : (s.toList.head?.any fun c => !isClosing c) = true) : Clause d free [] (lit s) :=
  ⟨composed_lit hs, led_lit hhead⟩

/-- Literal text before anything is a clause. -/
theorem Composed.clause {s : String} {t : Text} {names : List String}
    (hs : (s.toList.all isClean) = true)
    (hhead : (s.toList.head?.any fun c => !isClosing c) = true) (h : Composed d free t names) :
    Clause d free names (lit s ++ t) :=
  ⟨h.words hs, led_words hhead⟩

/-- The clauses of a statement, one lemma each : what they add to its names. -/
theorem returns_whereClause {w : Option ExprNode} (h : CleanCalls free w.toList) :
    Returns (whereClause d w) (Clause d free (ExprNode.namesOption d w)) :=
  returns_where h.visit

theorem returns_havingClause {w : Option ExprNode} (h : CleanCalls free w.toList) :
    Returns (havingClause d w) (Clause d free (ExprNode.namesOption d w)) :=
  (returns_visitOption (by decide) (by decide) h.visit).and (led_visitOption (by decide) w)

theorem returns_groupByClause {es : List ExprNode} (h : CleanCalls free es) :
    Returns (groupByClause d es) (Clause d free (ExprNode.namesList d es)) :=
  (returns_visitList h.visit).listClause _ "" (by rintro rfl; rfl) clause_nil
    (by decide) (by decide) clause_nil

theorem clause_pagingOrder (limit offset : Option ℕ) (paging : String) :
    Clause d free [] (pagingOrder limit offset paging) := by
  unfold pagingOrder
  split
  · exact clause_lit (by decide) (by decide)
  · exact clause_nil

theorem returns_orderByClause {os : List OrderByExpr} (h : CleanCalls free (os.map Prod.fst))
    (limit offset : Option ℕ) (paging : String) :
    Returns (orderByClause d os limit offset paging)
      (Clause d free (ExprNode.namesOrderBy d os)) :=
  (returns_visitOrderBy h.visit).listClause _ "" (by rintro rfl; rfl)
    (clause_pagingOrder limit offset paging) (by decide) (by decide) clause_nil

/-- The step for a list with commas between its items, where `list` writes it and `item` one
of them. -/
structure WritesItems {α : Type*} (item : α → Gen Text) (list : List α → Gen Text) : Prop where
  nil : list [] = pure []
  cons : ∀ a as, list (a :: as) = do
    let head ← item a
    let tail ← list as
    return head ++ commaBefore as ++ tail

/-- A list is written with the names of its items. -/
theorem WritesItems.returns {α : Type*} {item : α → Gen Text} {list : List α → Gen Text}
    (hlist : WritesItems item list) {g : α → List String} {as : List α}
    (h : ∀ a ∈ as, Returns (item a) (Composed d free · (g a))) :
    Returns (list as) (Composed d free · (as.flatMap g)) := by
  have hempty : ∀ as : List α, Returns (list as) fun u => as = [] → u = [] := by
    rintro as c rfl
    rw [hlist.nil]
    rfl
  induction as with
  | nil =>
    rw [hlist.nil]
    exact returns_pure .nil
  | cons a as ih =>
    rw [hlist.cons]
    refine (h a List.mem_cons_self).bind fun t ht =>
      ((ih fun b hb => h b (List.mem_cons_of_mem a hb)).and (hempty as)).bind
        fun u ⟨hu, hnil⟩ => returns_pure ?_
    rw [List.append_assoc, List.flatMap_cons]
    cases as with
    | nil =>
      rw [hnil rfl]
      exact ht.append .nil led_nil
    | cons => exact ht.append (hu.words (by decide)) (led_words (by decide))

/-- The text of a common table expression, up to the comma. -/
theorem returns_cte {c : CteClause} (h : CleanCalls free c.trees) :
    Returns (do
        let whereStr ← whereClause d c.subquery.where_
        return d.quoteId c.name ++ lit " AS (SELECT " ++
          selectFrom d "*" c.subquery.isDistinct c.subquery.selectColumns c.subquery.tableName ++
          whereStr ++ lit ")") (Composed d free · (c.names d)) := by
  refine (returns_whereClause h).bind fun t ht => returns_pure ?_
  have hsub := composed_subquery " AS (SELECT " ")" "*" c.subquery.isDistinct
    c.subquery.selectColumns c.subquery.tableName (by decide) (by decide) (by decide) (by decide) ht
  have hall := Composed.name (n := c.name) (led_words (by decide)) hsub
  simp only [List.append_assoc] at hall ⊢
  exact hall

theorem returns_cteList {ctes : List CteClause}
    (h : CleanCalls free (ctes.flatMap CteClause.trees)) :
    Returns (cteList d ctes) (Composed d free · (ctes.flatMap (CteClause.names d))) := by
  have hitems : WritesItems (fun c : CteClause => do
      let whereStr ← whereClause d c.subquery.where_
      return d.quoteId c.name ++ lit " AS (SELECT " ++
        selectFrom d "*" c.subquery.isDistinct c.subquery.selectColumns c.subquery.tableName ++
        whereStr ++ lit ")") (cteList d) := ⟨rfl, fun _ _ => rfl⟩
  exact hitems.returns fun c hc =>
    returns_cte fun n hn => h n (List.mem_flatMap.mpr ⟨c, hc, hn⟩)

theorem returns_withClause {ctes : List CteClause}
    (h : CleanCalls free (ctes.flatMap CteClause.trees)) :
    Returns (withClause d ctes) (Clause d free (ctes.flatMap (CteClause.names d))) :=
  (returns_cteList h).listClause _ " " (by rintro rfl; rfl) clause_nil (by decide)
    (by decide) (clause_lit (by decide) (by decide))

theorem returns_joinList :
    ∀ {js : List JoinClause}, CleanCalls free (js.map JoinClause.onCondition) →
      (∀ j ∈ js, CleanUnless free j.joinType) →
      Returns (joinList d js) (Clause d free (js.flatMap (JoinClause.names d)))
  | [], _, _ => returns_pure clause_nil
  | j :: js, h, htypes => by
    have hrest := returns_joinList h.tail fun k hk => htypes k (List.mem_cons_of_mem j hk)
    refine (h.visit _ List.mem_cons_self).bind fun t ht => hrest.bind fun u hu => returns_pure ?_
    have hname := Composed.name (n := j.tableName) (led_words (by decide))
      ((ht.append hu.1 hu.2).words (s := " ON ") (by decide))
    have hall := hname.free_words (s := " " ++ j.joinType ++ " ")
      (((cleanUnless_of_all (by decide)).append (htypes j List.mem_cons_self)).append
        (cleanUnless_of_all (by decide)))
    have hled : ∀ v, Led d (lit (" " ++ j.joinType ++ " ") ++ v) := by
      intro v
      rw [lit_append, lit_append, List.append_assoc, List.append_assoc]
      exact led_words (by decide)
    simp only [List.append_assoc]
    exact ⟨hall, hled _⟩

theorem returns_setOpList :
    ∀ {ops : List SetOpClause}, CleanCalls free (ops.flatMap SetOpClause.trees) →
      Returns (setOpList d ops) (Clause d free (ops.flatMap (SetOpClause.names d)))
  | [], _ => returns_pure clause_nil
  | op :: ops, h => by
    rw [List.flatMap_cons] at h
    have hrest := returns_setOpList h.right
    refine (returns_whereClause h.left).bind fun t ht => hrest.bind fun u hu => returns_pure ?_
    have htail := ht.append hu
    have hselect := htail.1.selectFrom "*" (by decide) op.isDistinct op.columns
      op.tableName htail.2
    have hall := (hselect.words (s := "SELECT ") (by decide)).words op.opType.clean_sql
    rw [List.flatMap_cons, SetOpClause.names, List.append_assoc, List.cons_append]
    simp only [List.append_assoc] at hall ⊢
    exact ⟨hall, op.opType.led_sql⟩

theorem returns_setOpOrderBy {os : List OrderByExpr}
    (h : CleanCalls free (os.flatMap setOpOrderTree)) :
    Returns (setOpOrderBy d os) (Composed d free · (os.flatMap (setOpOrderNames d))) := by
  have hitems : WritesItems (fun o : OrderByExpr => do
      let head ← setOpOrderKey d o.1
      return head ++ lit o.2.sql) (setOpOrderBy d) := ⟨rfl, fun _ _ => rfl⟩
  refine hitems.returns fun o ho => ?_
  obtain ⟨e, dir⟩ := o
  have hkey : Returns (setOpOrderKey d e) (Composed d free · (setOpOrderNames d (e, dir))) := by
    have hvisit : ∀ n ∈ setOpOrderTree (e, dir),
        Returns (visit d n) (Composed d free · (n.names d)) :=
      fun n hn => h.visit n (List.mem_flatMap.mpr ⟨_, ho, hn⟩)
    cases e with
    | columnRef ref => exact returns_pure (composed_quoteId _)
    | _ => exact hvisit _ List.mem_cons_self
  refine hkey.bind fun t ht => returns_pure ?_
  have hdir := ht.append (composed_lit dir.clean_sql) (led_lit (by cases dir <;> decide))
  rwa [List.append_nil] at hdir

theorem returns_assignmentList {as : List AssignExpr}
    (h : CleanCalls free (as.map AssignExpr.value)) :
    Returns (assignmentList d as) (Composed d free · (as.flatMap (AssignExpr.names d))) := by
  have hitems : WritesItems (fun a : AssignExpr => do
      let valueStr ← visit d a.value
      return d.quoteId (assignedColumn a.column) ++ lit " = " ++ valueStr) (assignmentList d) :=
    ⟨rfl, fun _ _ => rfl⟩
  refine hitems.returns fun a ha =>
    (h.visit _ (List.mem_map_of_mem ha)).bind fun t ht => returns_pure ?_
  rw [List.append_assoc]
  exact .name (led_words (by decide)) (ht.words (by decide))

theorem returns_visitLiteral (v : BoundValue) :
    Returns (visitLiteral v) (Composed d free · []) :=
  fun c => composed_placeholder c.paramCounter

theorem returns_valueList (vs : List BoundValue) :
    Returns (valueList vs) (Composed d free · []) := by
  have hitems : WritesItems visitLiteral valueList := ⟨rfl, fun _ _ => rfl⟩
  refine (hitems.returns (g := fun _ => []) fun v _ => returns_visitLiteral v).mono fun _ ht =>
    ht.of_eq ?_
  simp

theorem returns_valueAssignmentList (as : List (String × BoundValue)) :
    Returns (valueAssignmentList d as) (Composed d free · (as.map Prod.fst)) := by
  have hitems : WritesItems (fun a : String × BoundValue => do
      let valueStr ← visitLiteral a.2
      return d.quoteId a.1 ++ lit " = " ++ valueStr) (valueAssignmentList d) :=
    ⟨rfl, fun _ _ => rfl⟩
  refine (hitems.returns (g := fun a => [a.1]) fun a _ => ?_).mono fun _ ht => ht.of_eq ?_
  · have hvalue : Returns (visitLiteral a.2) (Composed d free · []) := returns_visitLiteral a.2
    refine hvalue.bind fun t ht => returns_pure ?_
    rw [List.append_assoc]
    exact .name (led_words (by decide)) (ht.words (by decide))
  · rw [List.map_eq_flatMap]

theorem returns_insertValues (columns : List String) (values : List BoundValue) :
    Returns (insertValues columns values) (Clause d free []) := by
  unfold insertValues
  split
  · exact returns_pure (clause_lit (by decide) (by decide))
  · have hlist : Returns (valueList values) (Composed d free · []) := returns_valueList values
    refine hlist.bind fun t ht => returns_pure ?_
    rw [List.append_assoc]
    exact Composed.clause (by decide) (by decide)
      (ht.append (composed_lit (by decide)) (led_lit (by decide)))

end Clauses

/-! ## Paging -/

section Paging

variable {d : Dialect} {free : Char → Prop}

theorem clean_repr (n : ℕ) : (n.repr.toList.all isClean) = true := by
  refine List.all_eq_true.mpr fun c hc => ?_
  rw [Nat.toList_repr] at hc
  have hdigit : c.isDigit = true := isDigit_of_mem_decimal hc
  have hne : ∀ a : Char, a.isDigit = false → (c == a) = false := by
    intro a ha
    rw [beq_eq_false_iff_ne]
    rintro rfl
    rw [hdigit] at ha
    contradiction
  simp [isClean, hne _]

theorem cleanUnless_repr (n : ℕ) : CleanUnless free n.repr :=
  cleanUnless_of_all (clean_repr n)

/-- Literal text before a string. -/
theorem clause_append {s s' : String} (hs : (s.toList.all isClean) = true)
    (hhead : (s.toList.head?.any fun c => !isClosing c) = true) (hs' : CleanUnless free s') :
    Clause d free [] (lit (s ++ s')) := by
  have h : Composed d free (lit s' ++ []) [] := Composed.free_words hs' .nil
  rw [List.append_nil] at h
  rw [lit_append]
  exact h.clause hs hhead

theorem clause_fetchNext (limit offset : Option ℕ) :
    Clause d free [] (lit (Dialect.fetchNext limit offset)) := by
  have hword : ∀ {s : String}, (s.toList.all isClean) = true → CleanUnless free s :=
    cleanUnless_of_all
  cases limit with
  | none =>
    cases offset with
    | none => exact clause_nil
    | some m =>
      have hsplit : Dialect.fetchNext none (some m) = " OFFSET " ++ (m.repr ++ " ROWS") :=
        String.append_assoc
      rw [hsplit]
      exact clause_append (by decide) (by decide) ((cleanUnless_repr m).append (hword (by decide)))
  | some n =>
    have hfetch : CleanUnless free (n.repr ++ " ROWS ONLY") :=
      (cleanUnless_repr n).append (hword (by decide))
    cases offset with
    | none =>
      have hsplit : Dialect.fetchNext (some n) none =
          " OFFSET 0 ROWS FETCH NEXT " ++ (n.repr ++ " ROWS ONLY") := String.append_assoc
      rw [hsplit]
      exact clause_append (by decide) (by decide) hfetch
    | some m =>
      have hsplit : Dialect.fetchNext (some n) (some m) =
          " OFFSET " ++ (m.repr ++ (" ROWS FETCH NEXT " ++ (n.repr ++ " ROWS ONLY"))) := by
        change " OFFSET " ++ m.repr ++ " ROWS FETCH NEXT " ++ n.repr ++ " ROWS ONLY" = _
        rw [String.append_assoc, String.append_assoc, String.append_assoc]
      rw [hsplit]
      exact clause_append (by decide) (by decide)
        ((cleanUnless_repr m).append ((hword (by decide)).append hfetch))

theorem clause_limitThenOffset {unlimited : String} (h : Clause d free [] (lit unlimited))
    (limit offset : Option ℕ) :
    Clause d free [] (lit (Dialect.limitThenOffset unlimited limit offset)) := by
  have hlimit : ∀ n : ℕ, Clause d free [] (lit (" LIMIT " ++ n.repr)) := fun n =>
    clause_append (by decide) (by decide) (cleanUnless_repr n)
  have hoffset : ∀ m : ℕ, Clause d free [] (lit (" OFFSET " ++ m.repr)) := fun m =>
    clause_append (by decide) (by decide) (cleanUnless_repr m)
  cases limit with
  | none =>
    cases offset with
    | none => exact clause_nil
    | some m =>
      rw [Dialect.limitThenOffset, String.append_assoc, lit_append]
      exact h.append (hoffset m)
  | some n =>
    cases offset with
    | none => exact hlimit n
    | some m =>
      rw [Dialect.limitThenOffset, String.append_assoc, lit_append]
      exact (hlimit n).append (hoffset m)

/-- The paging of a dialect holds no name. -/
theorem clause_limitOffset {limit offset : Option ℕ} {paging : String}
    (h : d.limitOffset limit offset = .ok paging) : Clause d free [] (lit paging) := by
  cases d with
  | sqlite | mysql =>
    injection h with h
    rw [← h]
    exact clause_limitThenOffset (clause_lit (by decide) (by decide)) limit offset
  | postgres =>
    injection h with h
    rw [← h]
    exact clause_limitThenOffset clause_nil limit offset
  | mssql =>
    simp only [Dialect.limitOffset] at h
    split at h
    · contradiction
    · injection h with h
      rw [← h]
      exact clause_fetchNext limit offset
  | informix =>
    injection h with h
    rw [← h]
    exact clause_nil
  | oracle =>
    injection h with h
    rw [← h]
    exact clause_fetchNext limit offset

/-- `SKIP` and `FIRST` hold no name. -/
theorem Composed.selectPrefix {t : Text} {names : List String} (limit offset : Option ℕ)
    (h : Composed d free t names) :
    Composed d free (lit (d.selectPrefixLimitOffset limit offset) ++ t) names := by
  have hnumber : ∀ (word : String) (n : ℕ), (word.toList.all isClean) = true →
      CleanUnless free (word ++ n.repr ++ " ") := fun word n hword =>
    ((cleanUnless_of_all hword).append (cleanUnless_repr n)).append
      (cleanUnless_of_all (by decide))
  have hnone : CleanUnless free "" := cleanUnless_of_all (by decide)
  refine h.free_words ?_
  cases d with
  | informix =>
    cases offset with
    | none =>
      cases limit with
      | none => exact hnone.append hnone
      | some n => exact hnone.append (hnumber "FIRST " n (by decide))
    | some m =>
      cases limit with
      | none => exact (hnumber "SKIP " m (by decide)).append hnone
      | some n => exact (hnumber "SKIP " m (by decide)).append (hnumber "FIRST " n (by decide))
  | _ => exact hnone

end Paging

/-! ## Upserts -/

section Upserts

variable {d : Dialect} {free : Char → Prop}

/-- Items with commas between them, each of them of its names. -/
theorem composed_commaList {α : Type*} {items : List α} {f : α → Text} {g : α → List String}
    (h : ∀ a ∈ items, Composed d free (f a) (g a)) :
    Composed d free (commaList (items.map f)) (items.flatMap g) :=
  composed_joinSep (by decide) (by decide) h

theorem composed_placeholderList (n : ℕ) : Composed d free (Dialect.placeholderList n) [] :=
  (composed_commaList (g := fun _ => []) fun i _ => composed_placeholder i).of_eq (by simp)

/-- The text `word`, with a dot, before the rest adds the names `wordNames`. -/
def IsAlias (d : Dialect) (free : Char → Prop) (word : String) (wordNames : List String) : Prop :=
  ∀ {t : Text} {names : List String}, Composed d free t names →
    Composed d free (lit (word ++ ".") ++ t) (wordNames ++ names)

/-- A plain word is an alias without a name. -/
theorem isAlias_of_clean (word : String) (h : (word.toList.all isClean) = true) :
    IsAlias d free word [] :=
  fun ht => ht.free_words ((cleanUnless_of_all h).append (cleanUnless_of_all (by decide)))

/-- A bracketed word is an alias, and a name. -/
theorem isAlias_bracketed {word name : String} (h : lit word = Dialect.quoteId .mssql name) :
    IsAlias .mssql free word [name] := by
  intro t names ht
  rw [lit_append, h, List.append_assoc]
  exact .name (led_words (by decide)) (ht.words (by decide))

/-- A column of one alias set to that of another. -/
theorem composed_targetIsSource {target source : String} {targetNames sourceNames : List String}
    (htarget : IsAlias d free target targetNames) (hsource : IsAlias d free source sourceNames)
    (c : String) : Composed d free (d.targetIsSource target source c)
      (targetNames ++ c :: (sourceNames ++ [c])) := by
  have hequals : lit (" = " ++ source ++ ".") = lit " = " ++ lit (source ++ ".") := by
    rw [String.append_assoc, lit_append]
  rw [Dialect.targetIsSource, hequals]
  simp only [List.append_assoc]
  exact htarget (.name (led_words (by decide))
    ((hsource (composed_quoteId c)).words (by decide)))

/-- What follows the sources of a `MERGE`. -/
theorem composed_mergeTail {target source : String} {targetNames sourceNames : List String}
    (htarget : IsAlias d free target targetNames) (hsource : IsAlias d free source sourceNames)
    (ins conflict upd : List String) :
    Composed d free (d.mergeTail target source ins conflict upd)
      (mergeNames targetNames sourceNames ins conflict upd) := by
  let pair (c : String) : List String := targetNames ++ c :: (sourceNames ++ [c])
  have hpair : ∀ c, Composed d free (d.targetIsSource target source c) (pair c) :=
    composed_targetIsSource htarget hsource
  have hvalues : Composed d free (commaList (ins.map fun c => lit (source ++ ".") ++ d.quoteId c))
      (ins.flatMap fun c => sourceNames ++ [c]) :=
    composed_commaList fun c _ => hsource (composed_quoteId c)
  have hend := hvalues.append (composed_lit (s := ")") (by decide)) (led_lit (by decide))
  have hinsert := (composed_columnList (d := d) ins).append
    (hend.words (s := ") VALUES (") (by decide)) (led_words (by decide))
  have hupdate : ∀ {u : Text} {names : List String}, Clause d free names u →
      Clause d free (upd.flatMap pair ++ names)
        ((if upd.isEmpty then [] else lit " WHEN MATCHED THEN UPDATE SET " ++
          commaList (upd.map (d.targetIsSource target source))) ++ u) := by
    intro u names hu
    have hlist : Composed d free (commaList (upd.map (d.targetIsSource target source)))
        (upd.flatMap pair) := composed_commaList fun c _ => hpair c
    split
    · rename_i hempty
      rw [List.isEmpty_iff.mp hempty]
      exact hu
    · rw [List.append_assoc]
      exact (hlist.append hu.1 hu.2).clause (by decide) (by decide)
  have hkey : Composed d free (andList (conflict.map (d.targetIsSource target source)))
      (conflict.flatMap pair) := composed_joinSep (by decide) (by decide) fun c _ => hpair c
  have hnot := hinsert.clause (s := " WHEN NOT MATCHED THEN INSERT (") (by decide) (by decide)
  have hall := hkey.append ((hupdate hnot).1.words (s := ")") (by decide)) (led_words (by decide))
  rw [List.append_nil] at hall
  simp only [Dialect.mergeTail, List.append_assoc] at hall ⊢
  exact hall

/-- The head of an insertion : its table and columns. -/
theorem composed_insertInto (table : String) (columns : List String) {t : Text}
    {names : List String} (h : Composed d free t names) :
    Composed d free (lit "INSERT INTO " ++ (d.quoteId table ++ (lit " (" ++
      (d.columnList columns ++ (lit ") VALUES (" ++ t))))) (table :: (columns ++ names)) :=
  (Composed.name (led_words (by decide)) (((composed_columnList columns).append
    (h.words (by decide)) (led_words (by decide))).words (by decide))).words (by decide)

theorem composed_baseUpsert (table : String) (ins conflict upd : List String) :
    Composed d free (d.baseUpsert table ins conflict upd)
      (table :: (ins ++ (conflict ++ upd.flatMap fun c => [c, c]))) := by
  have hupdate : Clause d free (upd.flatMap fun c => [c, c]) (if upd.isEmpty then
      lit ") DO NOTHING" else lit ") DO UPDATE SET " ++
        commaList (upd.map fun c => d.quoteId c ++ lit " = EXCLUDED." ++ d.quoteId c)) := by
    split
    · rename_i hempty
      rw [List.isEmpty_iff.mp hempty]
      exact clause_lit (by decide) (by decide)
    · refine Composed.clause (by decide) (by decide) (composed_commaList fun c _ => ?_)
      rw [List.append_assoc]
      exact .name (led_words (by decide)) ((composed_quoteId c).words (by decide))
  have hconflict := (composed_columnList (d := d) conflict).append hupdate.1 hupdate.2
  have hvalues := (composed_placeholderList (d := d) ins.length).append
    (hconflict.words (s := ") ON CONFLICT (") (by decide)) (led_words (by decide))
  have hall := composed_insertInto table ins hvalues
  simp only [Dialect.baseUpsert, List.append_assoc, List.nil_append] at hall ⊢
  exact hall

theorem composed_mysqlUpsert {table : String} {ins conflict upd : List String} {sql : Text}
    (h : Dialect.mysqlUpsert table ins conflict upd = .ok sql) :
    Composed .mysql free sql (Dialect.upsertNames table ins conflict upd .mysql) := by
  cases ins with
  | nil => contradiction
  | cons first ins =>
    injection h with h
    have hself : ∀ c : String, Composed .mysql free
        (Dialect.quoteId .mysql c ++ lit " = " ++ Dialect.quoteId .mysql c) [c, c] := by
      intro c
      rw [List.append_assoc]
      exact .name (led_words (by decide)) ((composed_quoteId c).words (by decide))
    have hvalue : ∀ c : String, Composed .mysql free
        (Dialect.quoteId .mysql c ++ lit " = VALUES(" ++ Dialect.quoteId .mysql c ++ lit ")")
        [c, c] := by
      intro c
      simp only [List.append_assoc]
      exact .name (led_words (by decide))
        ((Composed.name (led_lit (by decide)) (composed_lit (by decide))).words (by decide))
    have hall : ∀ {u : Text} {names : List String}, Composed .mysql free u names →
        Composed .mysql free (lit "INSERT INTO " ++ Dialect.quoteId .mysql table ++ lit " (" ++
          Dialect.columnList .mysql (first :: ins) ++ lit ") VALUES (" ++
          Dialect.placeholderList (first :: ins).length ++ lit ") ON DUPLICATE KEY UPDATE " ++ u)
          (table :: (first :: ins ++ names)) := by
      intro u names hu
      have hvalues := (composed_placeholderList (d := .mysql) (first :: ins).length).append
        (hu.words (s := ") ON DUPLICATE KEY UPDATE ") (by decide)) (led_words (by decide))
      have hinsert := composed_insertInto table (first :: ins) hvalues
      simp only [List.append_assoc, List.nil_append] at hinsert ⊢
      exact hinsert
    rw [← h]
    cases upd with
    | nil =>
      cases conflict with
      | nil => exact hall (hself first)
      | cons c conflict => exact hall (hself c)
    | cons c upd => exact hall (composed_commaList fun c _ => hvalue c)

theorem composed_mssqlUpsert {table : String} {ins conflict upd : List String} {sql : Text}
    (h : Dialect.mssqlUpsert table ins conflict upd = .ok sql) :
    Composed .mssql free sql (Dialect.upsertNames table ins conflict upd .mssql) := by
  unfold Dialect.mssqlUpsert at h
  split at h
  · contradiction
  split at h
  · contradiction
  injection h with h
  have htarget : IsAlias .mssql free "[target]" ["target"] := isAlias_bracketed (by decide)
  have hsource : IsAlias .mssql free "[source]" ["source"] := isAlias_bracketed (by decide)
  have hmerge := (composed_mergeTail htarget hsource ins conflict upd).append
    (composed_lit (s := ";") (by decide)) (led_lit (by decide))
  have hcolumns := (composed_columnList (d := .mssql) ins).append
    (hmerge.words (s := ") ON (") (by decide)) (led_words (by decide))
  have hsourceName := Composed.name (n := "source") (led_words (by decide))
    (hcolumns.words (s := " (") (by decide))
  have hvalues := (composed_placeholderList (d := .mssql) ins.length).append
    (hsourceName.words (s := ")) AS ") (by decide)) (led_words (by decide))
  have htargetName := Composed.name (n := "target") (led_words (by decide))
    (hvalues.words (s := " USING (VALUES (") (by decide))
  have hall := (Composed.name (n := table) (led_words (by decide))
    (htargetName.words (s := " WITH (HOLDLOCK) AS ") (by decide))).words (s := "MERGE INTO ")
    (by decide)
  have hhold : lit " WITH (HOLDLOCK) AS [target] USING (VALUES (" = lit " WITH (HOLDLOCK) AS " ++
      (Dialect.quoteId .mssql "target" ++ lit " USING (VALUES (") := rfl
  have has : lit ")) AS [source] (" = lit ")) AS " ++
      (Dialect.quoteId .mssql "source" ++ lit " (") := rfl
  rw [← h, hhold, has]
  simp only [List.append_assoc, List.nil_append, List.append_nil] at hall ⊢
  exact hall

/-- The columns of a MERGE source, written with their numbers. -/
theorem composed_mapIdx (ins : List String) {f : ℕ → String → Text}
    (h : ∀ i c, Composed d free (f i c) [c]) :
    Composed d free (commaList (ins.mapIdx f)) ins := by
  rw [List.mapIdx_eq_zipIdx_map]
  refine (composed_commaList (g := fun p => [p.1]) fun p _ => h p.2 p.1).of_eq ?_
  rw [← List.map_eq_flatMap, List.zipIdx_map_fst]

theorem composed_oracleUpsert (table : String) (ins conflict upd : List String) :
    Composed .oracle free (Dialect.oracleUpsert table ins conflict upd)
      (Dialect.upsertNames table ins conflict upd .oracle) := by
  unfold Dialect.oracleUpsert Dialect.upsertNames
  split
  · exact .nil
  have halias : ∀ word : String, (word.toList.all isClean) = true → IsAlias .oracle free word [] :=
    isAlias_of_clean
  have hmerge := composed_mergeTail (halias "target" (by decide)) (halias "source" (by decide))
    ins conflict (upd.filter fun c => !conflict.contains c)
  have hcolumns := (composed_mapIdx (d := .oracle) ins
    (f := fun i c => placeholder i ++ lit " AS " ++ Dialect.quoteId .oracle c) fun i c => by
      rw [List.append_assoc]
      exact (composed_placeholder i).append ((composed_quoteId c).words (by decide))
        (led_words (by decide))).append
    (hmerge.words (s := " FROM DUAL) source ON (") (by decide)) (led_words (by decide))
  have hall := (Composed.name (n := table) (led_words (by decide))
    (hcolumns.words (s := " target USING (SELECT ") (by decide))).words (s := "MERGE INTO ")
    (by decide)
  simp only [List.append_assoc] at hall ⊢
  exact hall

theorem cleanUnless_informixCastType (v : BoundValue) :
    CleanUnless free (Dialect.informixCastType v) := by
  have hword : ∀ {s : String}, (s.toList.all isClean) = true → CleanUnless free s :=
    cleanUnless_of_all
  have htext : ∀ {short : String} (size : ℕ), (short.toList.all isClean) = true →
      CleanUnless free (Dialect.informixTextType short size) := by
    intro short size hshort
    unfold Dialect.informixTextType
    split
    · exact ((hword (by decide)).append (cleanUnless_repr _)).append (hword (by decide))
    · exact hword hshort
  cases v with
  | string v => exact htext _ (by decide)
  | wstring v => exact htext _ (by decide)
  | _ =>
    simp only [Dialect.informixCastType]
    exact hword (by decide)

theorem composed_informixUpsert (table : String) (ins : List String) (values : List BoundValue)
    (conflict upd : List String) :
    Composed .informix free (Dialect.informixUpsert table ins values conflict upd)
      (Dialect.upsertNames table ins conflict upd .informix) := by
  have hword : ∀ {s : String}, (s.toList.all isClean) = true → CleanUnless free s :=
    cleanUnless_of_all
  have halias : ∀ word : String, (word.toList.all isClean) = true →
      IsAlias .informix free word [] :=
    isAlias_of_clean
  have hcast : ∀ v : Option BoundValue,
      CleanUnless free ((v.map Dialect.informixCastType).getD "VARCHAR(255)") := by
    intro v
    cases v with
    | none => exact hword (by decide)
    | some v => exact cleanUnless_informixCastType v
  have hmerge := composed_mergeTail (halias "target" (by decide)) (halias "source" (by decide))
    ins conflict upd
  have hsystables := Composed.name (n := "informix") (led_words (by decide))
    (hmerge.words (s := ".systables WHERE tabid = 1) AS source ON (") (by decide))
  have hcolumns := (composed_mapIdx (d := .informix) ins
    (f := fun i c => lit "CAST(" ++ placeholder i ++
      lit (" AS " ++ (values[i]?.map Dialect.informixCastType).getD "VARCHAR(255)" ++ ") AS ") ++
      Dialect.quoteId .informix c) fun i c => by
      have htype : ∀ t, Led .informix (lit (" AS " ++
          (values[i]?.map Dialect.informixCastType).getD "VARCHAR(255)" ++ ") AS ") ++ t) := by
        intro t
        rw [String.append_assoc, lit_append, List.append_assoc]
        exact led_words (by decide)
      simp only [List.append_assoc]
      exact ((composed_placeholder i).append ((composed_quoteId c).free_words
        (((hword (by decide)).append (hcast _)).append (hword (by decide)))) (htype _)).words
        (by decide)).append
    (hsystables.words (s := " FROM ") (by decide)) (led_words (by decide))
  have hall := (Composed.name (n := table) (led_words (by decide))
    (hcolumns.words (s := " AS target USING (SELECT ") (by decide))).words (s := "MERGE INTO ")
    (by decide)
  have hfrom : lit " FROM \"informix\".systables WHERE tabid = 1) AS source ON (" = lit " FROM " ++
      (Dialect.quoteId .informix "informix" ++
        lit ".systables WHERE tabid = 1) AS source ON (") := rfl
  rw [Dialect.informixUpsert, hfrom]
  simp only [List.append_assoc] at hall ⊢
  exact hall

/-- The upsert of any dialect holds the names that it is given. -/
theorem composed_generateUpsert {table : String} {ins conflict upd : List String}
    {values : List BoundValue} {sql : Text}
    (h : d.generateUpsert table ins values conflict upd = .ok sql) :
    Composed d free sql (d.upsertNames table ins conflict upd) := by
  cases d with
  | sqlite | postgres =>
    injection h with h
    rw [← h]
    exact composed_baseUpsert table ins conflict upd
  | mssql => exact composed_mssqlUpsert h
  | mysql => exact composed_mysqlUpsert h
  | informix =>
    injection h with h
    rw [← h]
    exact composed_informixUpsert table ins values conflict upd
  | oracle =>
    injection h with h
    rw [← h]
    exact composed_oracleUpsert table ins conflict upd

end Upserts

/-! ## Statements -/

section Statements

variable {d : Dialect} {free : Char → Prop} {r : GeneratedSql}

/-- A generated statement holds the names of its generation. -/
theorem Returns.composed {g : Gen Text} {names : List String}
    (h : Returns g (Composed d free · names)) : Composed d free (GeneratedSql.of g).sql names :=
  h (Context.start 0)

theorem generateCteSelect_composed {ctes : List CteClause} {table : String}
    {columns : List String} {w : Option ExprNode} {order : List OrderByExpr}
    {limit offset : Option ℕ} {distinct : Bool} {group : List ExprNode}
    {having : Option ExprNode}
    (h : generateCteSelect d ctes table columns w order limit offset distinct group having =
      .ok r)
    (hcalls : CleanCalls free (ctes.flatMap CteClause.trees ++ w.toList ++ group ++
      having.toList ++ order.map Prod.fst)) :
    Composed d free r.sql (GenerateCall.names d
      (.cteSelect ctes table columns w order limit offset distinct group having)) := by
  unfold generateCteSelect at h
  cases hp : d.limitOffset limit offset with
  | error e => rw [hp] at h; contradiction
  | ok paging =>
    rw [hp] at h
    injection h with h
    rw [← h]
    refine Returns.composed ((returns_withClause hcalls.left.left.left.left).bind fun t₁ h₁ =>
      (returns_whereClause hcalls.left.left.left.right).bind fun t₂ h₂ =>
      (returns_groupByClause hcalls.left.left.right).bind fun t₃ h₃ =>
      (returns_havingClause hcalls.left.right).bind fun t₄ h₄ =>
      (returns_orderByClause hcalls.right limit offset paging).bind fun t₅ h₅ =>
      returns_pure ?_)
    have htail := h₂.append (h₃.append (h₄.append (h₅.append (clause_limitOffset hp))))
    have hselect :=
      ((htail.1.selectFrom "*" (by decide) distinct columns table htail.2).selectPrefix
        limit offset).words (s := "SELECT ") (by decide)
    have hall := h₁.1.append hselect (led_words (by decide))
    simp only [List.append_assoc, List.append_nil] at hall ⊢
    exact hall

theorem composed_joinedColumns (tables : List (String × List String)) :
    Composed d free (joinedColumns d tables)
      (tables.flatMap fun t => t.2.flatMap fun c => [t.1, c]) := by
  unfold joinedColumns
  have hpairs : (tables.flatMap fun t => t.2.map fun c => d.quoteId t.1 ++ lit "." ++ d.quoteId c) =
      (tables.flatMap fun t => t.2.map fun c => (t.1, c)).map fun p =>
        d.quoteId p.1 ++ lit "." ++ d.quoteId p.2 := by
    simp [List.map_flatMap, Function.comp_def]
  rw [hpairs]
  refine (composed_commaList (g := fun p => [p.1, p.2]) fun p _ => ?_).of_eq ?_
  · rw [List.append_assoc]
    exact .name (led_words (by decide)) ((composed_quoteId p.2).words (by decide))
  · simp [List.flatMap_assoc, List.flatMap_map]

theorem generateJoinedSelect_composed {table : String} {columns : List String}
    {joins : List JoinClause} {joined : List (String × List String)} {w : Option ExprNode}
    {order : List OrderByExpr} {limit offset : Option ℕ} {distinct : Bool}
    (h : generateJoinedSelect d table columns joins joined w order limit offset distinct =
      .ok r)
    (hcalls : CleanCalls free (joins.map JoinClause.onCondition ++ w.toList ++ order.map Prod.fst))
    (htypes : ∀ j ∈ joins, CleanUnless free j.joinType) :
    Composed d free r.sql (GenerateCall.names d
      (.joinedSelect table columns joins joined w order limit offset distinct)) := by
  unfold generateJoinedSelect at h
  cases hp : d.limitOffset limit offset with
  | error e => rw [hp] at h; contradiction
  | ok paging =>
    rw [hp] at h
    injection h with h
    rw [← h]
    refine Returns.composed ((returns_joinList hcalls.left.left htypes).bind fun t₁ h₁ =>
      (returns_whereClause hcalls.left.right).bind fun t₂ h₂ =>
      (returns_orderByClause hcalls.right limit offset paging).bind fun t₃ h₃ => returns_pure ?_)
    have htail := h₁.append (h₂.append (h₃.append (clause_limitOffset hp)))
    have hfrom := (Composed.name (n := table) htail.2 htail.1).words (s := " FROM ") (by decide)
    have hcolumns := (composed_joinedColumns ((table, columns) :: joined)).append hfrom
      (led_words (by decide))
    have hall := ((hcolumns.distinctWord distinct).selectPrefix limit offset).words
      (s := "SELECT ") (by decide)
    simp only [List.append_assoc, List.append_nil] at hall ⊢
    exact hall

theorem generateSetOperation_composed {table : String} {columns : List String}
    {w : Option ExprNode} {distinct : Bool} {ops : List SetOpClause}
    {order : List OrderByExpr} {limit offset : Option ℕ}
    (h : generateSetOperation d table columns w distinct ops order limit offset = .ok r)
    (hcalls : CleanCalls free (w.toList ++ ops.flatMap SetOpClause.trees ++
      order.flatMap setOpOrderTree)) :
    Composed d free r.sql (GenerateCall.names d
      (.setOperation table columns w distinct ops order limit offset)) := by
  unfold generateSetOperation at h
  cases hp : d.limitOffset limit offset with
  | error e => rw [hp] at h; contradiction
  | ok paging =>
    rw [hp] at h
    injection h with h
    rw [← h]
    refine Returns.composed ((returns_whereClause hcalls.left.left).bind fun t₁ h₁ =>
      (returns_setOpList hcalls.left.right).bind fun t₂ h₂ =>
      ((returns_setOpOrderBy hcalls.right).listClause _ "" (by rintro rfl; rfl)
        (clause_pagingOrder limit offset paging) (by decide) (by decide) clause_nil).bind
        fun t₃ h₃ => returns_pure ?_)
    have htail := h₁.append (h₂.append (h₃.append (clause_limitOffset hp)))
    have hall := ((htail.1.selectFrom "*" (by decide) distinct columns table htail.2).selectPrefix
      limit offset).words (s := "SELECT ") (by decide)
    simp only [List.append_assoc, List.append_nil] at hall ⊢
    exact hall

theorem generateSetOperationCount_composed {table : String} {columns : List String}
    {w : Option ExprNode} {distinct : Bool} {ops : List SetOpClause}
    (h : generateSetOperationCount d table columns w distinct ops = .ok r)
    (hcalls : CleanCalls free (w.toList ++ ops.flatMap SetOpClause.trees)) :
    Composed d free r.sql (GenerateCall.names d
      (.setOperationCount table columns w distinct ops)) := by
  unfold generateSetOperationCount at h
  cases hs : generateSetOperation d table columns w distinct ops [] none none with
  | error e => rw [hs] at h; contradiction
  | ok sub =>
    rw [hs] at h
    injection h with h
    have hsub : Composed d free sub.sql _ :=
      generateSetOperation_composed hs (by simpa using hcalls)
    have hname : Composed d free (lit ") " ++ d.quoteId "_sub") ["_sub"] :=
      (composed_quoteId _).words (by decide)
    have hall := (hsub.append hname (led_words (by decide))).words (s := "SELECT COUNT(*) FROM (")
      (by decide)
    have htext : r.sql = lit "SELECT COUNT(*) FROM (" ++ (sub.sql ++ (lit ") " ++
        d.quoteId "_sub")) := by
      rw [← h, List.append_assoc, List.append_assoc]
    rw [htext]
    exact hall.of_eq (by simp [GenerateCall.names])

/-- The clause of a named column, with its name. -/
theorem clause_onNamedColumn {clause : String → Text} (h : ∀ c, Clause d free [c] (clause c))
    (column : Option String) :
    Clause d free (namedColumn column) (onNamedColumn clause column) := by
  cases column with
  | none => exact clause_nil
  | some c =>
    simp only [namedColumn, onNamedColumn]
    split
    · exact clause_nil
    · exact h c

theorem onNamedColumn_nil (column : Option String) : onNamedColumn (fun _ => []) column = [] := by
  cases column with
  | none => rfl
  | some c => exact ite_self []

/-- The returned column is named before the values, after them or not at all. -/
theorem clause_returned (d : Dialect) (free : Char → Prop) (returning : Option String) :
    ∃ names names', Clause d free names (onNamedColumn d.outputClause returning) ∧
      Clause d free names' (onNamedColumn d.returningClause returning) ∧
      names ++ names' = d.returnedNames returning := by
  have hnil : ∀ d' : Dialect, Clause d' free [] (onNamedColumn (fun _ => []) returning) := by
    intro d'
    rw [onNamedColumn_nil]
    exact clause_nil
  have hword : ∀ (d' : Dialect) (s c : String), (s.toList.all isClean) = true →
      (s.toList.head?.any fun c => !isClosing c) = true →
        Clause d' free [c] (lit s ++ d'.quoteId c) :=
    fun d' s c hs hhead => (composed_quoteId c).clause hs hhead
  cases d with
  | sqlite | postgres =>
    exact ⟨[], _, hnil _, clause_onNamedColumn (fun c => hword _ " RETURNING " c (by decide)
      (by decide)) returning, rfl⟩
  | mssql =>
    exact ⟨_, [], clause_onNamedColumn (fun c => hword _ " OUTPUT INSERTED." c (by decide)
      (by decide)) returning, hnil _, List.append_nil _⟩
  | mysql | informix | oracle => exact ⟨[], [], hnil _, hnil _, rfl⟩

theorem generateInsert_composed (table : String) (columns : List String)
    (values : List BoundValue) (returning : Option String) :
    Composed d free (generateInsert d table columns values returning).sql
      (GenerateCall.names d (.insert table columns values returning)) := by
  have hvalues : Returns (insertValues columns values) (Clause d free []) :=
    returns_insertValues columns values
  refine Returns.composed (hvalues.bind fun t ht => returns_pure ?_)
  obtain ⟨names, names', houtput, hreturning, hnames⟩ := clause_returned d free returning
  have hcolumns : Clause d free columns
      (if columns.isEmpty then [] else lit " (" ++ d.columnList columns ++ lit ")") := by
    split
    · rename_i hempty
      rw [List.isEmpty_iff.mp hempty]
      exact clause_nil
    · have hlist : Composed d free (d.columnList columns ++ lit ")") (columns ++ []) :=
        (composed_columnList columns).append (composed_lit (by decide)) (led_lit (by decide))
      rw [List.append_nil] at hlist
      rw [List.append_assoc]
      exact hlist.clause (by decide) (by decide)
  have htail := hcolumns.append (houtput.append (ht.append hreturning))
  have hall := (Composed.name (n := table) htail.2 htail.1).words (s := "INSERT INTO ") (by decide)
  rw [List.nil_append, hnames] at hall
  simp only [List.append_assoc] at hall ⊢
  exact hall

/-- Every statement is composed of its names, if its functions and join types are clean or
free. -/
theorem generate_composed {call : GenerateCall} (h : generate d call = .ok r)
    (hnames : ∀ f ∈ call.functionNames, CleanUnless free f)
    (htypes : ∀ j ∈ call.joinTypes, CleanUnless free j) :
    Composed d free r.sql (call.names d) := by
  have hcalls : CleanCalls free call.trees := by
    intro n hn m hm f hf
    refine hnames f (List.mem_append_left _ (List.mem_filterMap.mpr ⟨m, ?_, hf⟩))
    exact List.mem_flatMap.mpr ⟨n, hn, hm⟩
  cases call with
  | cteSelect => exact generateCteSelect_composed h hcalls
  | select => exact generateCteSelect_composed h hcalls
  | joinedSelect _ _ joins =>
    exact generateJoinedSelect_composed h hcalls fun j hj => htypes _ (List.mem_map_of_mem hj)
  | joinedCount table joins w =>
    injection h with h
    rw [← h]
    refine Returns.composed ((returns_joinList hcalls.left
      fun j hj => htypes _ (List.mem_map_of_mem hj)).bind fun t₁ h₁ =>
      (returns_whereClause hcalls.right).bind fun t₂ h₂ => returns_pure ?_)
    have htail := h₁.append h₂
    have hall := (Composed.name (n := table) htail.2 htail.1).words (s := "SELECT COUNT(*) FROM ")
      (by decide)
    simp only [List.append_assoc] at hall ⊢
    exact hall
  | setOperation => exact generateSetOperation_composed h hcalls
  | setOperationCount => exact generateSetOperationCount_composed h hcalls
  | insert table columns values returning =>
    injection h with h
    rw [← h]
    exact generateInsert_composed table columns values returning
  | upsert table ins values conflict upd =>
    change generateUpsert d table ins values conflict upd = .ok r at h
    unfold generateUpsert at h
    cases hs : d.generateUpsert table ins values conflict upd with
    | error e => rw [hs] at h; contradiction
    | ok sql =>
      rw [hs] at h
      injection h with h
      rw [← h]
      exact composed_generateUpsert hs
  | update table assignments w =>
    injection h with h
    rw [← h]
    refine Returns.composed ((returns_assignmentList hcalls.left).bind fun t₁ h₁ =>
      (returns_whereClause hcalls.right).bind fun t₂ h₂ => returns_pure ?_)
    have hall := (Composed.name (n := table) (led_words (by decide))
      ((h₁.append h₂.1 h₂.2).words (s := " SET ") (by decide))).words (s := "UPDATE ") (by decide)
    simp only [List.append_assoc] at hall ⊢
    exact hall
  | updateValues table assignments w =>
    injection h with h
    rw [← h]
    have hset : Returns (valueAssignmentList d assignments)
        (Composed d free · (assignments.map Prod.fst)) := returns_valueAssignmentList assignments
    refine Returns.composed (hset.bind fun t₁ h₁ =>
      (returns_whereClause hcalls.right).bind fun t₂ h₂ => returns_pure ?_)
    have hall := (Composed.name (n := table) (led_words (by decide))
      ((h₁.append h₂.1 h₂.2).words (s := " SET ") (by decide))).words (s := "UPDATE ") (by decide)
    simp only [List.append_assoc] at hall ⊢
    exact hall
  | delete table w =>
    injection h with h
    rw [← h]
    refine Returns.composed ((returns_whereClause hcalls).bind fun t ht => returns_pure ?_)
    have hall := (Composed.name (n := table) ht.2 ht.1).words (s := "DELETE FROM ") (by decide)
    simp only [List.append_assoc] at hall ⊢
    exact hall
  | count table w isDistinct column =>
    injection h with h
    rw [← h]
    refine Returns.composed ((returns_whereClause hcalls).bind fun t ht => returns_pure ?_)
    have hfrom := (Composed.name (n := table) ht.2 ht.1).words (s := ") FROM ") (by decide)
    have hcounted : ∀ {counted : Text} {names : List String}, Composed d free counted names →
        Composed d free (lit "SELECT COUNT(" ++ counted ++ lit ") FROM " ++ d.quoteId table ++ t)
          (names ++ table :: ExprNode.namesOption d w) := by
      intro counted names hcounted
      have hall := (hcounted.append hfrom (led_words (by decide))).words (s := "SELECT COUNT(")
        (by decide)
      simp only [List.append_assoc] at hall ⊢
      exact hall
    cases isDistinct with
    | false => exact hcounted (composed_lit (by decide))
    | true =>
      cases column with
      | none => exact hcounted (composed_lit (by decide))
      | some c => exact hcounted ((composed_quoteId c).words (by decide))
  | aggregate func table column w =>
    injection h with h
    rw [← h]
    refine Returns.composed ((returns_whereClause hcalls).bind fun t ht => returns_pure ?_)
    have hfunc : CleanUnless free func := hnames func (by simp [GenerateCall.functionNames])
    have hfrom := (Composed.name (n := table) ht.2 ht.1).words (s := ") FROM ") (by decide)
    have hcolumn : Composed d free (if column = "*" then lit "*" else d.quoteId column)
        (if column = "*" then [] else [column]) := by
      split
      · exact composed_lit (by decide)
      · exact composed_quoteId column
    have hall := (((hcolumn.append hfrom (led_words (by decide))).words (s := "(")
      (by decide)).free_words (d.cleanUnless_functionName hfunc)).words (s := "SELECT ") (by decide)
    simp only [List.append_assoc] at hall ⊢
    exact hall
  | expression node =>
    injection h with h
    rw [← h]
    exact Returns.composed (hcalls.visit node List.mem_cons_self)

end Statements

end CppLinq
