import CppLinq.NumericConversion
import CppLinq.OptionalClauses
import CppLinq.SetOperationPaging

/-!
# Queries read from their texts

What a server reads in the text of a query (`readRowQuery`), and that it is the query which
the generator was asked for.
-/

namespace CppLinq

open Reader

/-! ## Numbers of rows -/

/-- The limit that stands for none in MySQL. -/
def noLimit : ℕ :=
  18446744073709551615

/-- What a dialect writes for a limit and an offset. MySQL has no offset without a limit, and
SQL Server and Oracle no limit without an offset. -/
def Dialect.restriction : Dialect → Option ℕ → Option ℕ → Restriction
  | .mysql, none, some m => ⟨some noLimit, some m⟩
  | .mssql, some n, none => ⟨some n, some 0⟩
  | .oracle, some n, none => ⟨some n, some 0⟩
  | _, limit, offset => ⟨limit, offset⟩

/-- The restriction that a dialect writes before the select list. -/
def Dialect.firstRestriction : Dialect → Option ℕ → Option ℕ → Restriction
  | .informix, limit, offset => ⟨limit, offset⟩
  | _, _, _ => {}

/-- The restriction that a dialect writes at the end. -/
def Dialect.lastRestriction : Dialect → Option ℕ → Option ℕ → Restriction
  | .informix, _, _ => {}
  | d, limit, offset => d.restriction limit offset

section Numbers

/-- Digits. -/
def readNumber : Reader Char ℕ := fun cs =>
  let digits := cs.takeWhile Char.isDigit
  if digits.isEmpty then none else some (digitsValue digits, cs.dropWhile Char.isDigit)

/-- A number between two texts, or none. -/
def readBound (before after : String) : Reader Char (Option ℕ) :=
  (do
    exactly before.toList
    let n ← readNumber
    exactly after.toList
    return some n) <|> return none

/-- The restriction before the select list. -/
def readFirst : Dialect → Reader Char Restriction
  | .informix => do
    let offset ← readBound "SKIP " " "
    let limit ← readBound "FIRST " " "
    return ⟨limit, offset⟩
  | _ => return {}

/-- `LIMIT` and `OFFSET`. -/
def readLimitOffset : Reader Char Restriction := do
  let limit ← readBound " LIMIT " ""
  let offset ← readBound " OFFSET " ""
  return ⟨limit, offset⟩

/-- The restriction at the end. SQLite takes a negative limit for none. -/
def readPaging : Dialect → Reader Char Restriction
  | .sqlite =>
    (do
      exactly " LIMIT -1".toList
      let offset ← readBound " OFFSET " ""
      return ⟨none, offset⟩) <|> readLimitOffset
  | .postgres | .mysql => readLimitOffset
  | .mssql | .oracle => do
    let offset ← readBound " OFFSET " " ROWS"
    let limit ← readBound " FETCH NEXT " " ROWS ONLY"
    return ⟨limit, offset⟩
  | .informix => return {}

variable {rest : List Char}

theorem toList_repr (n : ℕ) : n.repr.toList = decimal n := by
  rw [Nat.repr, String.toList_ofList]
  rfl

/-- A number is read up to what is no digit. -/
theorem takes_number (n : ℕ) (hrest : rest.head?.all (!Char.isDigit ·) = true) :
    Takes readNumber n.repr.toList n rest := by
  have hdigits : ∀ c ∈ decimal n, c.isDigit = true := fun c hc => isDigit_of_mem_decimal hc
  have hnone : rest.takeWhile Char.isDigit = [] ∧ rest.dropWhile Char.isDigit = rest := by
    cases rest with
    | nil => exact ⟨rfl, rfl⟩
    | cons c rest =>
      have hc : c.isDigit = false := by simpa using hrest
      simp [hc]
  have htake : (decimal n ++ rest).takeWhile Char.isDigit = decimal n := by
    rw [List.takeWhile_append_of_pos hdigits, hnone.1, List.append_nil]
  have hdrop : (decimal n ++ rest).dropWhile Char.isDigit = rest := by
    rw [List.dropWhile_append_of_pos hdigits, hnone.2]
  have hne : (decimal n).isEmpty = false := by
    rw [List.isEmpty_eq_false_iff]
    exact Nat.toDigits_ne_nil
  rw [toList_repr]
  unfold Takes readNumber
  rw [StateT.run, htake, hdrop]
  simp [hne, SqlNumeric.digitsValue_decimal]

/-- The text of a number between two texts, if there is one. -/
def boundText (before after : String) : Option ℕ → List Char
  | none => []
  | some n => before.toList ++ (n.repr.toList ++ after.toList)

theorem takes_bound (before after : String) (n : Option ℕ)
    (hsome : (after.toList ++ rest).head?.all (!Char.isDigit ·) = true)
    (hnone : rest.dropPrefix? before.toList = none) :
    Takes (readBound before after) (boundText before after n) n rest := by
  cases n with
  | none =>
    exact Takes.orElse_right (run_bind_eq_none (run_exactly_eq_none hnone))
      (takes_pure none rest)
  | some n =>
    refine Takes.orElse (takes_exactly_bind ?_)
    exact (takes_number n hsome).bind
      (Takes.bind_nil (takes_exactly after.toList rest) (takes_pure (some n) rest))

theorem toList_limitThenOffset (limit offset : Option ℕ) :
    (Dialect.limitThenOffset "" limit offset).toList =
      boundText " LIMIT " "" limit ++ boundText " OFFSET " "" offset := by
  cases limit <;> cases offset <;> simp [Dialect.limitThenOffset, boundText]

theorem toList_noLimit : noLimit.repr.toList = "18446744073709551615".toList := by
  refine (toList_repr noLimit).trans ?_
  unfold decimal noLimit
  rfl

theorem toList_fetchNext (limit offset : Option ℕ) :
    (Dialect.fetchNext limit offset).toList =
      boundText " OFFSET " " ROWS" (Dialect.restriction .oracle limit offset).offset ++
        boundText " FETCH NEXT " " ROWS ONLY" limit := by
  have hrows : " ROWS FETCH NEXT ".toList = " ROWS".toList ++ " FETCH NEXT ".toList := rfl
  have hzero : " OFFSET 0 ROWS FETCH NEXT ".toList =
      boundText " OFFSET " " ROWS" (some 0) ++ " FETCH NEXT ".toList := rfl
  cases limit with
  | none =>
    cases offset with
    | none => rfl
    | some m =>
      change (" OFFSET " ++ m.repr ++ " ROWS").toList = boundText " OFFSET " " ROWS" (some m) ++ []
      rw [String.toList_append, String.toList_append, boundText, List.append_nil, List.append_assoc]
  | some n =>
    cases offset with
    | none =>
      change (" OFFSET 0 ROWS FETCH NEXT " ++ n.repr ++ " ROWS ONLY").toList =
        boundText " OFFSET " " ROWS" (some 0) ++ _
      simp only [String.toList_append, hzero, boundText, List.append_assoc]
    | some m =>
      change (" OFFSET " ++ m.repr ++ " ROWS FETCH NEXT " ++ n.repr ++ " ROWS ONLY").toList =
        boundText " OFFSET " " ROWS" (some m) ++ _
      simp only [String.toList_append, hrows, boundText, List.append_assoc]

/-- No number begins with a sign. -/
theorem dropPrefix?_negative (n : ℕ) (rest : List Char) :
    (boundText " LIMIT " "" (some n) ++ rest).dropPrefix? " LIMIT -1".toList = none := by
  have hne : decimal n ≠ [] := Nat.toDigits_ne_nil
  obtain ⟨c, cs, hcs⟩ := List.exists_cons_of_ne_nil hne
  have hc : c ≠ '-' := by
    rintro rfl
    have hdigit : ('-' : Char).isDigit = true :=
      isDigit_of_mem_decimal (n := n) (by rw [hcs]; exact List.mem_cons_self)
    contradiction
  rw [boundText, toList_repr, hcs]
  simp [List.dropPrefix?, hc]

/-- `LIMIT` and `OFFSET` are read back. -/
theorem takes_limitOffset (limit offset : Option ℕ) :
    Takes readLimitOffset (boundText " LIMIT " "" limit ++ boundText " OFFSET " "" offset)
      ⟨limit, offset⟩ [] := by
  have hoffset : Takes (readBound " OFFSET " "") (boundText " OFFSET " "" offset) offset [] :=
    takes_bound " OFFSET " "" offset rfl rfl
  refine (takes_bound " LIMIT " "" limit ?_ ?_).bind
    (hoffset.map fun m => (⟨limit, m⟩ : Restriction))
  · cases offset <;> rfl
  · cases offset <;> rfl

/-- `OFFSET` and `FETCH` are read back. -/
theorem takes_fetchNext (limit offset : Option ℕ) :
    Takes (readPaging .oracle) (Dialect.fetchNext limit offset).toList
      (Dialect.restriction .oracle limit offset) [] := by
  have hlimit : Takes (readBound " FETCH NEXT " " ROWS ONLY") _ limit [] :=
    takes_bound " FETCH NEXT " " ROWS ONLY" limit rfl rfl
  have hrestriction : Dialect.restriction .oracle limit offset =
      ⟨limit, (Dialect.restriction .oracle limit offset).offset⟩ := by
    cases limit <;> cases offset <;> rfl
  rw [toList_fetchNext, hrestriction]
  refine (takes_bound " OFFSET " " ROWS" _ rfl ?_).bind
    (hlimit.map fun n => (⟨n, _⟩ : Restriction))
  cases limit <;> rfl

/-- What stands for no limit is written for an offset alone. -/
theorem limitThenOffset_limited {unlimited : String} {limit offset : Option ℕ}
    (h : ¬(limit = none ∧ offset.isSome)) :
    Dialect.limitThenOffset unlimited limit offset = Dialect.limitThenOffset "" limit offset := by
  cases limit <;> cases offset <;> simp_all [Dialect.limitThenOffset]

/-- A limit and an offset are read back as the dialect writes them. -/
theorem takes_paging {d : Dialect} (hd : d ≠ .informix) {limit offset : Option ℕ}
    {paging : String} (h : d.limitOffset limit offset = .ok paging) :
    Takes (readPaging d) paging.toList (d.restriction limit offset) [] := by
  cases d with
  | sqlite =>
    injection h with h
    subst h
    by_cases honly : limit = none ∧ offset.isSome
    · obtain ⟨m, rfl⟩ := Option.isSome_iff_exists.mp honly.2
      obtain rfl := honly.1
      have htext : (Dialect.limitThenOffset " LIMIT -1" none (some m)).toList =
          " LIMIT -1".toList ++ boundText " OFFSET " "" (some m) := by
        simp [Dialect.limitThenOffset, boundText]
      have hoffset : Takes (readBound " OFFSET " "") _ (some m) [] :=
        takes_bound " OFFSET " "" (some m) rfl rfl
      rw [htext]
      exact (takes_exactly_bind (hoffset.map fun m => (⟨none, m⟩ : Restriction))).orElse
    · rw [limitThenOffset_limited honly, toList_limitThenOffset]
      refine Takes.orElse_right (run_bind_eq_none (run_exactly_eq_none ?_))
        (takes_limitOffset limit offset)
      cases limit with
      | none =>
        have hnone : offset = none := by simpa using honly
        rw [hnone]
        rfl
      | some n =>
        rw [List.append_nil]
        exact dropPrefix?_negative n _
  | postgres =>
    injection h with h
    subst h
    rw [toList_limitThenOffset]
    exact takes_limitOffset limit offset
  | mysql =>
    injection h with h
    subst h
    by_cases honly : limit = none ∧ offset.isSome
    · obtain ⟨m, rfl⟩ := Option.isSome_iff_exists.mp honly.2
      obtain rfl := honly.1
      have htext : (Dialect.limitThenOffset " LIMIT 18446744073709551615" none (some m)).toList =
          boundText " LIMIT " "" (some noLimit) ++ boundText " OFFSET " "" (some m) := by
        simp only [Dialect.limitThenOffset, boundText, toList_noLimit, String.toList_append]
        simp
      rw [htext]
      exact takes_limitOffset (some noLimit) (some m)
    · have hwritten : Dialect.restriction .mysql limit offset = ⟨limit, offset⟩ := by
        cases limit <;> cases offset <;> first | rfl | simp_all
      rw [limitThenOffset_limited honly, toList_limitThenOffset, hwritten]
      exact takes_limitOffset limit offset
  | mssql =>
    rw [Dialect.limitOffset] at h
    split at h
    · contradiction
    · injection h with h
      subst h
      have hrestriction : Dialect.restriction .mssql limit offset =
          Dialect.restriction .oracle limit offset := by
        cases limit <;> cases offset <;> rfl
      rw [hrestriction]
      exact takes_fetchNext limit offset
  | oracle =>
    injection h with h
    subst h
    exact takes_fetchNext limit offset
  | informix => contradiction

/-- Informix writes the numbers before the select list. -/
theorem takes_first (d : Dialect) (limit offset : Option ℕ)
    (hskip : rest.dropPrefix? "SKIP ".toList = none)
    (hfirst : rest.dropPrefix? "FIRST ".toList = none) :
    Takes (readFirst d) (d.selectPrefixLimitOffset limit offset).toList
      (d.firstRestriction limit offset) rest := by
  cases d with
  | informix =>
    have htext : (Dialect.selectPrefixLimitOffset .informix limit offset).toList =
        boundText "SKIP " " " offset ++ boundText "FIRST " " " limit := by
      cases limit <;> cases offset <;> simp [Dialect.selectPrefixLimitOffset, boundText]
    rw [htext]
    refine (takes_bound "SKIP " " " offset rfl ?_).bind
      ((takes_bound "FIRST " " " limit rfl hfirst).map fun n => (⟨n, offset⟩ : Restriction))
    cases limit with
    | none => exact hskip
    | some n => rfl
  | _ => exact takes_pure _ rest

/-- What is written governs the rows that are asked for. -/
theorem page_restriction (d : Dialect) (limit offset : Option ℕ) {rows : List Row}
    (hrows : rows.length ≤ noLimit) :
    page (d.restriction limit offset).limit (d.restriction limit offset).offset rows =
      page limit offset rows := by
  have hall : (rows.drop (offset.getD 0)).take noLimit = rows.drop (offset.getD 0) := by
    refine List.take_of_length_le ?_
    rw [List.length_drop]
    omega
  cases d with
  | mysql =>
    cases limit with
    | none =>
      cases offset with
      | none => rfl
      | some m => exact hall
    | some n => rfl
  | mssql | oracle => cases limit <;> cases offset <;> rfl
  | _ => rfl

end Numbers

/-! ## Columns -/

section Columns

variable (d : Dialect)

/-- A column, with its table or without. -/
def readColumn : Reader Char ColumnRef := do
  let name ← readName d
  (do
    exactly ".".toList
    let column ← readName d
    return ⟨name, column⟩) <|> return ⟨"", name⟩

/-- The select list. All columns are none. -/
def readColumns : Reader Char (List ColumnRef) :=
  (do exactly "*".toList; return []) <|> sepBy ", ".toList (readColumn d)

variable {d} {rest : List Char}

theorem write_quoteId_head (id : String) (more : List Char) :
    (d.write (d.quoteId id) ++ more).head? = some d.quotes.opening := by
  rw [write_quoteId]
  rfl

/-- A text does not begin with a word that has another first character. -/
theorem dropPrefix?_of_head {word text : List Char} {c : Char} (hword : word.head? = some c)
    (htext : text.head? ≠ some c) : text.dropPrefix? word = none := by
  rw [Option.eq_none_iff_forall_ne_some]
  intro tail hdrop
  rw [List.dropPrefix?_eq_some_iff] at hdrop
  obtain ⟨word', rfl, hword'⟩ := hdrop
  rw [eq_of_beq hword', List.head?_append, hword] at htext
  exact htext rfl

/-- A column without a table is read back. -/
theorem takes_plainColumn (c : String) (hstops : Stops d rest) (hdot : rest.head? ≠ some '.') :
    Takes (readColumn d) (d.write (d.quoteId c)) ⟨"", c⟩ rest := by
  refine Takes.bind_nil (takes_name c hstops) (Takes.orElse_right ?_ (takes_pure _ rest))
  exact run_bind_eq_none (run_exactly_eq_none (dropPrefix?_of_head rfl hdot))

/-- So is a column with its table. -/
theorem takes_tableColumn (t c : String) (hstops : Stops d rest) :
    Takes (readColumn d) (d.write (d.quoteId t ++ lit "." ++ d.quoteId c)) ⟨t, c⟩ rest := by
  have hdot : Stops d (".".toList ++ d.write (d.quoteId c) ++ rest) := by
    change some '.' ≠ some d.quotes.closing
    exact fun h => d.quotes.closing_ne_dot (Option.some.inj h).symm
  simp only [write_append, write_lit, List.append_assoc]
  refine (takes_name t (by rwa [List.append_assoc] at hdot ⊢)).bind (Takes.orElse ?_)
  exact takes_exactly_bind ((takes_name c hstops).map fun c => (⟨t, c⟩ : ColumnRef))

/-- A list of columns begins with a name. -/
theorem commaList_head {ι : Type} (text : ι → Text) {is : List ι} (hne : is ≠ [])
    (hhead : ∀ i ∈ is, ∃ id t, text i = d.quoteId id ++ t) :
    ∃ id t, commaList (is.map text) = d.quoteId id ++ t := by
  obtain ⟨i, is, rfl⟩ := List.exists_cons_of_ne_nil hne
  obtain ⟨id, t, ht⟩ := hhead i List.mem_cons_self
  refine ⟨id, ?_⟩
  rw [List.map_cons, ht]
  cases is with
  | nil => exact ⟨t, rfl⟩
  | cons j is =>
    exact ⟨t ++ (lit ", " ++ commaList ((j :: is).map text)), by simp [commaList, joinSep]⟩

/-- Columns one after the other, in front of `FROM`. -/
theorem takes_columnList {ι : Type} (text : ι → Text) (value : ι → ColumnRef) {is : List ι}
    (hne : is ≠ [])
    (hitem : ∀ i ∈ is, ∀ r, Stops d r → r.head? ≠ some '.' →
      Takes (readColumn d) (d.write (text i)) (value i) r) :
    Takes (sepBy ", ".toList (readColumn d)) (d.write (commaList (is.map text))) (is.map value)
      (" FROM ".toList ++ rest) := by
  have hcomma : ", ".toList ≠ [] := by decide
  rw [commaList, write_joinSep, List.map_map]
  refine takes_sepBy (d.write ∘ text) value hcomma hne (fun i hi r => ?_) (fun i hi => ?_) rfl
  · exact hitem i hi _ (stops_append rfl (by decide) r) (by simp)
  · exact hitem i hi _ (stops_append rfl (by decide) rest) (by simp)

/-- A select list in front of `FROM`. -/
theorem takes_columns {ι : Type} (text : ι → Text) (value : ι → ColumnRef) {is : List ι}
    (hne : is ≠ [])
    (hitem : ∀ i ∈ is, ∀ r, Stops d r → r.head? ≠ some '.' →
      Takes (readColumn d) (d.write (text i)) (value i) r)
    (hhead : ∀ i ∈ is, ∃ id t, text i = d.quoteId id ++ t) :
    Takes (readColumns d) (d.write (commaList (is.map text))) (is.map value)
      (" FROM ".toList ++ rest) := by
  have hstar : (d.write (commaList (is.map text)) ++ (" FROM ".toList ++ rest)).dropPrefix?
      "*".toList = none := by
    obtain ⟨id, t, ht⟩ := commaList_head text hne hhead
    rw [ht, write_append, List.append_assoc]
    refine dropPrefix?_of_head rfl ?_
    rw [write_quoteId_head]
    cases d <;> decide
  exact Takes.orElse_right (run_bind_eq_none (run_exactly_eq_none hstar))
    (takes_columnList text value hne hitem)

end Columns

/-! ## Joins -/

section Joins

variable (d : Dialect) (slots : List ParameterSlot)

/-- The words of a join. -/
def readJoinType : Reader Char String :=
  (do exactly " INNER JOIN ".toList; return "INNER JOIN") <|>
    (do exactly " LEFT JOIN ".toList; return "LEFT JOIN")

/-- At most `n` joins. -/
def readJoinLoop : ℕ → ℕ → Reader Char (List JoinClause × ℕ)
  | 0, k => return ([], k)
  | n + 1, k =>
    (do
      let type ← readJoinType
      let tableName ← readName d
      exactly " ON ".toList
      let (e, k) ← readTree d slots k
      let (js, k) ← readJoinLoop n k
      return (⟨type, tableName, e⟩ :: js, k)) <|> return ([], k)

/-- The joins of a query, the parameters numbered from `k` on. -/
def readJoins (k : ℕ) : Reader Char (List JoinClause × ℕ) := do
  readJoinLoop d slots (← get).length k

/-- The words of a join. -/
def joinHeads : List String :=
  [" INNER JOIN ", " LEFT JOIN "]

/-- The join is of a type that there is, and its condition can be read. -/
def JoinClause.Readable (j : JoinClause) : Prop :=
  (∃ type : JoinType, j.joinType = type.sql) ∧ j.onCondition.Readable d

/-- The join, its functions named as the dialect names them. -/
def JoinClause.inDialect (j : JoinClause) : JoinClause :=
  { j with onCondition := j.onCondition.inDialect d }

variable {d slots} {after : List String} {rest : List Char}

/-- The words of a join are read back. -/
theorem takes_joinType (type : JoinType) (rest : List Char) :
    Takes readJoinType (" " ++ type.sql ++ " ").toList type.sql rest := by
  cases type with
  | inner => exact ((takes_exactly " INNER JOIN ".toList rest).map fun _ => "INNER JOIN").orElse
  | left =>
    exact Takes.orElse_right (run_bind_eq_none (run_exactly_eq_none rfl))
      ((takes_exactly " LEFT JOIN ".toList rest).map fun _ => "LEFT JOIN")

theorem run_readJoinType (h : Follows after rest) (hafter : joinHeads.all (Unlike · after) = true) :
    readJoinType.run rest = none := by
  have hnone : ∀ w ∈ joinHeads, rest.dropPrefix? w.toList = none := by
    intro w hw
    refine h.dropPrefix? (List.all_eq_true.mp hafter w hw) ?_
    simp only [joinHeads, List.mem_cons, List.not_mem_nil, or_false] at hw
    rcases hw with rfl | rfl <;> decide
  exact run_orElse_eq_none
    (run_bind_eq_none (run_exactly_eq_none (hnone " INNER JOIN " (by decide))))
    (run_bind_eq_none (run_exactly_eq_none (hnone " LEFT JOIN " (by decide))))

theorem joinList_cons (j : JoinClause) (js : List JoinClause) (c : Context) :
    joinList d (j :: js) c =
      (lit (" " ++ j.joinType ++ " ") ++ d.quoteId j.tableName ++ lit " ON " ++
        (visit d j.onCondition c).1 ++ (joinList d js (c.record j.onCondition.leaves)).1,
        (joinList d js (c.record j.onCondition.leaves)).2) := by
  rw [← visit_snd d j.onCondition]
  rfl

/-- Joins begin with the words of the first. -/
theorem begins_joinList {js : List JoinClause} (hjs : ∀ j ∈ js, j.Readable d) (c : Context) :
    Follows joinHeads (d.write (joinList d js c).1) := by
  cases js with
  | nil => exact follows_nil joinHeads
  | cons j js =>
    obtain ⟨⟨type, htype⟩, -⟩ := hjs j List.mem_cons_self
    have hhead : " " ++ type.sql ++ " " ∈ joinHeads := by cases type <;> decide
    rw [joinList_cons, htype]
    simp only [write_append, write_lit, List.append_assoc]
    exact follows_word hhead _

/-- Joins are read until something else follows. -/
theorem takes_joinLoop {js : List JoinClause} (hjs : ∀ j ∈ js, j.Readable d)
    (hunlike : joinHeads.all (Unlike · after) = true) (hafter : AllClauses after = true)
    (c : Context)
    (hslots : (js.map JoinClause.onCondition).flatMap ExprNode.leaves <+:
      slots.drop c.paramCounter) (hrest : Follows after rest) {n : ℕ} (hn : js.length ≤ n) :
    Takes (readJoinLoop d slots n c.paramCounter) (d.write (joinList d js c).1)
      (js.map (JoinClause.inDialect d),
        c.paramCounter + ((js.map JoinClause.onCondition).flatMap ExprNode.leaves).length)
      rest := by
  induction js generalizing c n with
  | nil =>
    cases n with
    | zero => exact takes_pure _ rest
    | succ n =>
      exact Takes.orElse_right (run_bind_eq_none (run_readJoinType hrest hunlike))
        (takes_pure _ rest)
  | cons j js ih =>
    obtain ⟨n, rfl⟩ := Nat.exists_eq_add_one_of_ne_zero (Nat.ne_zero_of_lt hn)
    obtain ⟨⟨type, htype⟩, hread⟩ := hjs j List.mem_cons_self
    have hjs' : ∀ j ∈ js, j.Readable d := fun j hj => hjs j (List.mem_cons_of_mem _ hj)
    rw [List.map_cons, List.flatMap_cons] at hslots
    obtain ⟨hj, htail⟩ := prefix_drop_append hslots
    have hmore := ih hjs' (c.record j.onCondition.leaves) htail (Nat.le_of_succ_le_succ hn)
    have hnext : Follows (joinHeads ++ after)
        (d.write (joinList d js (c.record j.onCondition.leaves)).1 ++ rest) :=
      (begins_joinList hjs' _).append hrest
    have hclauses : AllClauses (joinHeads ++ after) = true := by
      rw [AllClauses, List.all_append, Bool.and_eq_true]
      exact ⟨by decide, hafter⟩
    rw [joinList_cons, htype]
    simp only [write_append, write_lit, List.append_assoc]
    refine Takes.orElse ((takes_joinType type _).bind ?_)
    refine (takes_name j.tableName ?_).bind ?_
    · rw [List.append_assoc]
      exact stops_append rfl (by decide) _
    refine takes_exactly_bind ((takes_tree hread c hj (hnext.atClause hclauses)).bind ?_)
    have hresult := hmore.map fun x =>
      ((⟨type.sql, j.tableName, j.onCondition.inDialect d⟩ : JoinClause) :: x.1, x.2)
    simpa [JoinClause.inDialect, htype, Nat.add_assoc] using hresult

theorem length_joinList (js : List JoinClause) (c : Context) :
    js.length ≤ (d.write (joinList d js c).1).length := by
  induction js generalizing c with
  | nil => exact Nat.zero_le _
  | cons j js ih =>
    have htail := ih (c.record j.onCondition.leaves)
    have hon : " ON ".toList.length = 4 := rfl
    rw [joinList_cons]
    simp only [write_append, write_lit, List.length_append, List.length_cons, hon]
    omega

/-- The joins of a query are read back, with their conditions. -/
theorem readBy_joins {js : List JoinClause} (hjs : ∀ j ∈ js, j.Readable d)
    (hunlike : joinHeads.all (Unlike · after) = true) (hafter : AllClauses after = true) :
    ReadBy d slots (joinList d js) (readJoins d slots) (js.map (JoinClause.inDialect d))
      ((js.map JoinClause.onCondition).flatMap ExprNode.leaves) joinHeads after := by
  have hwrites : Writes True [] (joinList d js) _ := writes_joinList js
  obtain ⟨text, hrecords⟩ := hwrites.records
  refine ⟨fun c => ?_, fun c => begins_joinList hjs c, fun c rest hslots hrest => ?_⟩
  · rw [hrecords, List.flatMap_map]
    rfl
  · have hlength : js.length ≤ (d.write (joinList d js c).1 ++ rest).length := by
      rw [List.length_append]
      exact (length_joinList js c).trans (Nat.le_add_right _ _)
    exact takes_joinLoop hjs hunlike hafter c hslots hrest hlength

end Joins

/-! ## The tables of a query -/

section SelectFrom

variable (d : Dialect)

/-- `DISTINCT`, or not. -/
def readDistinct : Reader Char Bool :=
  (do exactly "DISTINCT ".toList; return true) <|> return false

/-- `[DISTINCT] columns FROM table`. -/
def readSelectFrom : Reader Char (Bool × List ColumnRef × String) := do
  let isDistinct ← readDistinct
  let columns ← readColumns d
  exactly " FROM ".toList
  let tableName ← readName d
  return (isDistinct, columns, tableName)

/-- The text is read as a select list. -/
structure IsSelectList (d : Dialect) (columns : Text) (refs : List ColumnRef) : Prop where
  takes : ∀ rest, Takes (readColumns d) (d.write columns) refs (" FROM ".toList ++ rest)
  head : ∀ c ∈ ['S', 'F', 'D'], ∀ rest,
    (d.write columns ++ (" FROM ".toList ++ rest)).head? ≠ some c

variable {d} {rest : List Char}

/-- `DISTINCT` is read if it is there. -/
theorem takes_distinct (isDistinct : Bool) (hrest : rest.head? ≠ some 'D') :
    Takes readDistinct (d.write (distinctWord isDistinct)) isDistinct rest := by
  have hdistinct : "DISTINCT ".toList.head? = some 'D' := rfl
  unfold distinctWord
  rw [write_lit]
  cases isDistinct with
  | false =>
    exact Takes.orElse_right
      (run_bind_eq_none (run_exactly_eq_none (dropPrefix?_of_head hdistinct hrest)))
      (takes_pure false rest)
  | true => exact ((takes_exactly "DISTINCT ".toList rest).map fun _ => true).orElse

theorem takes_selectFrom {columns : Text} {refs : List ColumnRef}
    (hcolumns : IsSelectList d columns refs) (isDistinct : Bool) (tableName : String)
    (hrest : Stops d rest) :
    Takes (readSelectFrom d) (d.write (distinctWord isDistinct ++ columns ++ lit " FROM " ++
      d.quoteId tableName)) (isDistinct, refs, tableName) rest := by
  have hlist : Takes (readColumns d) (d.write columns) refs
      ((" FROM ".toList ++ d.write (d.quoteId tableName)) ++ rest) := by
    rw [List.append_assoc]
    exact hcolumns.takes _
  simp only [write_append, write_lit, List.append_assoc]
  refine (takes_distinct isDistinct ?_).bind (hlist.bind (takes_exactly_bind ?_))
  · simp only [List.append_assoc]
    exact hcolumns.head 'D' (by decide) _
  · exact (takes_name tableName hrest).map fun t => (isDistinct, refs, t)

/-- Before `DISTINCT` or the columns stands no restriction. -/
theorem head_selectFrom {columns : Text} {refs : List ColumnRef}
    (hcolumns : IsSelectList d columns refs) (isDistinct : Bool) (tableName : String) {c : Char}
    (hc : c ∈ ['S', 'F']) :
    (d.write (distinctWord isDistinct ++ columns ++ lit " FROM " ++ d.quoteId tableName) ++
      rest).head? ≠ some c := by
  simp only [write_append, write_lit, List.append_assoc]
  cases isDistinct with
  | false => exact hcolumns.head c (List.mem_append_left ['D'] hc) _
  | true =>
    rintro hcase
    obtain rfl : 'D' = c := Option.some.inj hcase
    simp at hc

theorem isSelectList_of_items {ι : Type} (text : ι → Text) (value : ι → ColumnRef)
    {is : List ι} (hne : is ≠ [])
    (hitem : ∀ i ∈ is, ∀ r, Stops d r → r.head? ≠ some '.' →
      Takes (readColumn d) (d.write (text i)) (value i) r)
    (hhead : ∀ i ∈ is, ∃ id t, text i = d.quoteId id ++ t) :
    IsSelectList d (commaList (is.map text)) (is.map value) := by
  refine ⟨fun rest => takes_columns text value hne hitem hhead, fun c hc rest => ?_⟩
  obtain ⟨id, t, ht⟩ := commaList_head text hne hhead
  rw [ht, write_append, List.append_assoc, write_quoteId_head]
  simp only [List.mem_cons, List.not_mem_nil, or_false] at hc
  rcases hc with rfl | rfl | rfl <;> cases d <;> decide

/-- The columns of one table, or all. -/
theorem isSelectList_columns (columns : List String) :
    IsSelectList d (selectList d "*" columns) (columns.map fun c => ⟨"", c⟩) := by
  cases columns with
  | nil =>
    have hstar : d.write (selectList d "*" []) = "*".toList := write_lit d "*"
    refine ⟨fun rest => ?_, fun c hc rest => ?_⟩
    · rw [hstar]
      exact ((takes_exactly "*".toList _).map fun _ => []).orElse
    · rw [hstar]
      simp only [List.mem_cons, List.not_mem_nil, or_false] at hc
      rcases hc with rfl | rfl | rfl <;> simp
  | cons c cs =>
    exact isSelectList_of_items d.quoteId (fun c => ⟨"", c⟩) (List.cons_ne_nil c cs)
      (fun c _ r hstops hdot => takes_plainColumn c hstops hdot)
      fun c _ => ⟨c, [], (List.append_nil _).symm⟩

/-- The columns of a join with the tables they are of. -/
def joinedRefs (tables : List (String × List String)) : List ColumnRef :=
  tables.flatMap fun t => t.2.map fun c => ⟨t.1, c⟩

/-- A column of a join in the select list. -/
def ColumnRef.sql (d : Dialect) (ref : ColumnRef) : Text :=
  d.quoteId ref.tableName ++ lit "." ++ d.quoteId ref.columnName

theorem joinedColumns_eq (d : Dialect) (tables : List (String × List String)) :
    joinedColumns d tables = commaList ((joinedRefs tables).map (ColumnRef.sql d)) := by
  unfold joinedColumns joinedRefs
  rw [List.map_flatMap]
  simp only [List.map_map]
  rfl

/-- The columns of a join begin with the name of a table. -/
theorem ColumnRef.sql_head (ref : ColumnRef) : ∃ id t, ref.sql d = d.quoteId id ++ t :=
  ⟨ref.tableName, _, List.append_assoc _ _ _⟩

/-- The columns of joined tables are read back, each with its table. -/
theorem isSelectList_joined {tables : List (String × List String)}
    (hne : joinedRefs tables ≠ []) :
    IsSelectList d (joinedColumns d tables) (joinedRefs tables) := by
  have hlist : IsSelectList d (commaList ((joinedRefs tables).map (ColumnRef.sql d)))
      ((joinedRefs tables).map id) :=
    isSelectList_of_items _ id hne
      (fun ref _ r hstops _ => takes_tableColumn ref.tableName ref.columnName hstops)
      fun ref _ => ref.sql_head
  rwa [← joinedColumns_eq, List.map_id] at hlist

end SelectFrom

end CppLinq
