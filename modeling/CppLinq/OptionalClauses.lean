import CppLinq.ClauseReading
import CppLinq.DmlStatements
import CppLinq.StatementTrees

/-!
# Optional clauses

The clauses of a query stand in a fixed order, and each may be left out. `ReadBy` says of a
step of the generator which slots it records, with which words its text begins if there is any,
and what a reader makes of the text in front of the clauses that may follow. Two steps one
after another are one such step (`ReadBy.both`), so a statement is put together from its
clauses.
-/

namespace CppLinq

open Reader

/-! ## What follows a clause -/

/-- A text ends here, or goes on with one of the given texts. -/
def Follows (heads : List String) (rest : List Char) : Prop :=
  rest = [] ∨ ∃ w ∈ heads, w.toList <+: rest

/-- A text that is none of these, nor the beginning of one. -/
def Unlike (word : String) (heads : List String) : Bool :=
  heads.all fun w => !w.toList.isPrefixOf word.toList && !word.toList.isPrefixOf w.toList

/-- Each of the texts begins a clause. -/
def AllClauses (heads : List String) : Bool :=
  heads.all fun w => clauseWords.any fun v => (' ' :: (v ++ [' '])).isPrefixOf w.toList

section Follows

variable {heads heads' : List String} {rest text : List Char} {word : String}

theorem follows_nil (heads : List String) : Follows heads [] :=
  Or.inl rfl

theorem Follows.mono (h : Follows heads rest) (hsub : heads ⊆ heads') : Follows heads' rest := by
  rcases h with rfl | ⟨w, hw, hprefix⟩
  · exact follows_nil heads'
  · exact Or.inr ⟨w, hsub hw, hprefix⟩

/-- Clauses that may be missing follow each other. -/
theorem Follows.append (ht : Follows heads text) (hr : Follows heads' rest) :
    Follows (heads ++ heads') (text ++ rest) := by
  rcases ht with rfl | ⟨w, hw, hprefix⟩
  · exact hr.mono (List.subset_append_right heads heads')
  · exact Or.inr ⟨w, List.mem_append_left heads' hw, hprefix.trans (List.prefix_append text rest)⟩

theorem follows_word (hw : word ∈ heads) (rest : List Char) :
    Follows heads (word.toList ++ rest) :=
  Or.inr ⟨word, hw, List.prefix_append word.toList rest⟩

/-- Another clause does not begin with the word. -/
theorem Follows.dropPrefix? (h : Follows heads rest) (hunlike : Unlike word heads = true)
    (hword : word.toList ≠ []) : rest.dropPrefix? word.toList = none := by
  rw [Option.eq_none_iff_forall_ne_some]
  rintro tail hdrop
  rw [List.dropPrefix?_eq_some_iff] at hdrop
  obtain ⟨word', rfl, hword'⟩ := hdrop
  rw [eq_of_beq hword'] at h
  rcases h with hnil | ⟨w, hw, hprefix⟩
  · exact hword (List.append_eq_nil_iff.mp hnil).1
  · have hboth := List.all_eq_true.mp hunlike w hw
    simp only [Bool.and_eq_true, Bool.not_eq_true', ← Bool.not_eq_true,
      List.isPrefixOf_iff_prefix] at hboth
    rcases List.prefix_or_prefix_of_prefix hprefix (List.prefix_append word.toList tail) with h | h
    · exact hboth.1 h
    · exact hboth.2 h

theorem beginsClause_word {v tail : List Char} (hv : v ∈ clauseWords)
    (htail : tail.head?.all isDelimiter = true) :
    beginsClause clauseWords (' ' :: (v ++ tail)) = true := by
  rw [beginsClause, Bool.and_eq_true, List.any_eq_true]
  refine ⟨rfl, v, hv, ?_⟩
  rw [dropPrefix?_append]
  exact htail

/-- What follows begins a clause. -/
theorem Follows.atClause (h : Follows heads rest) (hheads : AllClauses heads = true) :
    AtClause rest := by
  refine h.imp id ?_
  rintro ⟨w, hw, hprefix⟩
  obtain ⟨v, hv, hvw⟩ := List.any_eq_true.mp (List.all_eq_true.mp hheads w hw)
  obtain ⟨tail, rfl⟩ := (List.isPrefixOf_iff_prefix.mp hvw).trans hprefix
  rw [List.cons_append, List.append_assoc]
  exact beginsClause_word hv rfl

theorem Follows.stops {d : Dialect} (h : Follows heads rest) (hheads : AllClauses heads = true) :
    Stops d rest := by
  rcases h.atClause hheads with rfl | hclause
  · exact stops_nil
  · obtain ⟨w, -, tail, rfl, -⟩ := beginsClause_cases hclause
    exact stops_append (s := " ") rfl (by decide) (w ++ tail)

theorem Follows.delimited (h : Follows heads rest) (hheads : AllClauses heads = true) :
    rest.head?.all isDelimiter = true := by
  rcases h.atClause hheads with rfl | hclause
  · rfl
  · obtain ⟨w, -, tail, rfl, -⟩ := beginsClause_cases hclause
    rfl

theorem Follows.no_comma (h : Follows heads rest) (hheads : AllClauses heads = true) :
    rest.dropPrefix? ", ".toList = none := by
  rcases h.atClause hheads with rfl | hclause
  · rfl
  · obtain ⟨w, -, tail, rfl, -⟩ := beginsClause_cases hclause
    rfl

end Follows

/-! ## Steps that are read -/

variable {α β : Type} {d : Dialect} {slots : List ParameterSlot}

/-- The step records `S`. Its text, if there is any, begins with one of `heads`, and is read as
`a` in front of `after`. -/
structure ReadBy (d : Dialect) (slots : List ParameterSlot) (g : Gen Text)
    (p : ℕ → Reader Char (α × ℕ)) (a : α) (S : List ParameterSlot) (heads after : List String) :
    Prop where
  records : ∀ c, (g c).2 = c.record S
  begins : ∀ c, Follows heads (d.write (g c).1)
  takes : ∀ c rest, S <+: slots.drop c.paramCounter → Follows after rest →
    Takes (p c.paramCounter) (d.write (g c).1) (a, c.paramCounter + S.length) rest

/-- One step after another. -/
def Gen.both (g h : Gen Text) : Gen Text := do
  let t ← g
  let u ← h
  return t ++ u

/-- One reader after another. -/
def readBoth (p : ℕ → Reader Char (α × ℕ)) (q : ℕ → Reader Char (β × ℕ)) (k : ℕ) :
    Reader Char ((α × β) × ℕ) := do
  let (a, k) ← p k
  let (b, k) ← q k
  return ((a, b), k)

/-- A clause after its first words, or `whenNone` where they are missing. -/
def readClause (word : String) (whenNone : α) (p : ℕ → Reader Char (α × ℕ)) (k : ℕ) :
    Reader Char (α × ℕ) :=
  (do exactly word.toList; p k) <|> return (whenNone, k)

section Rules

variable {g h : Gen Text} {p : ℕ → Reader Char (α × ℕ)} {q : ℕ → Reader Char (β × ℕ)}
  {a : α} {b : β} {S S' : List ParameterSlot} {heads heads' after : List String} {word : String}

/-- A clause that is there is read behind its word. -/
theorem takes_readClause {k : ℕ} {x : α × ℕ} {text rest : List Char} {whenNone : α}
    (h : Takes (p k) text x rest) :
    Takes (readClause word whenNone p k) (word.toList ++ text) x rest :=
  (takes_exactly_bind h).orElse

/-- One that is not there is not. -/
theorem takes_noClause {k : ℕ} {rest : List Char} {whenNone : α}
    (h : rest.dropPrefix? word.toList = none) :
    Takes (readClause word whenNone p k) [] (whenNone, k) rest :=
  Takes.orElse_right (run_bind_eq_none (run_exactly_eq_none h)) (takes_pure _ rest)

theorem readBy_text (s : String) (hs : Follows heads s.toList) {p : Reader Char α}
    (h : ∀ rest, Follows after rest → Takes p s.toList a rest) :
    ReadBy d slots (pure (lit s)) (fun k => do let a ← p; return (a, k)) a [] heads after where
  records c := (Context.record_nil c).symm
  begins c := by
    change Follows heads (d.write (lit s))
    rwa [write_lit]
  takes c rest _ hrest := by
    change Takes _ (d.write (lit s)) _ _
    rw [write_lit]
    exact (h rest hrest).map fun a => (a, c.paramCounter)

/-- Two clauses are read one after the other. -/
theorem ReadBy.both (hg : ReadBy d slots g p a S heads (heads' ++ after))
    (hh : ReadBy d slots h q b S' heads' after) :
    ReadBy d slots (g.both h) (readBoth p q) (a, b) (S ++ S') (heads ++ heads') after := by
  have hrun : ∀ c, g.both h c = ((g c).1 ++ (h (c.record S)).1, (h (c.record S)).2) := by
    intro c
    rw [← hg.records c]
    rfl
  refine ⟨fun c => ?_, fun c => ?_, fun c rest hslots hrest => ?_⟩
  · rw [hrun, hh.records, Context.record_record]
  · rw [hrun, write_append]
    exact (hg.begins c).append (hh.begins (c.record S))
  · rw [hrun, write_append]
    obtain ⟨hS, hS'⟩ := prefix_drop_append hslots
    have hsecond := hh.takes (c.record S) rest hS' hrest
    rw [Context.paramCounter_record, Nat.add_assoc, ← List.length_append] at hsecond
    exact Takes.bind (hg.takes c _ hS ((hh.begins (c.record S)).append hrest))
      (hsecond.map fun b => ((a, b.1), b.2))

end Rules

/-! ## The clauses of a query -/

section Clauses

variable (d : Dialect) (slots : List ParameterSlot)

/-- A condition after its word. -/
def readCondition (word : String) : ℕ → Reader Char (Option ExprNode × ℕ) :=
  readClause word none fun k => do
    let (e, k) ← readTree d slots k
    return (some e, k)

/-- The grouping, if there is one. -/
def readGroupBy : ℕ → Reader Char (List ExprNode × ℕ) :=
  readClause " GROUP BY " [] (readTrees d slots)

variable {d slots} {after : List String} {word : String}

theorem inDialectList_eq_map (ns : List ExprNode) :
    ExprNode.inDialectList d ns = ns.map (ExprNode.inDialect d) := by
  induction ns with
  | nil => rfl
  | cons n ns ih => rw [ExprNode.inDialectList, ih, List.map_cons]

/-- A condition, or none. -/
theorem readBy_condition {w : Option ExprNode} (hw : ∀ n ∈ w, n.Readable d)
    (hword : word.toList ≠ []) (hunlike : Unlike word after = true)
    (hafter : AllClauses after = true) :
    ReadBy d slots (visitOption d word "" w) (readCondition d slots word)
      (w.map (ExprNode.inDialect d)) (w.toList.flatMap ExprNode.leaves) [word] after := by
  cases w with
  | none =>
    refine ⟨fun c => (Context.record_nil c).symm, fun c => follows_nil _, ?_⟩
    exact fun c rest _ hrest => takes_noClause (hrest.dropPrefix? hunlike hword)
  | some n =>
    have hrun : ∀ c, visitOption d word "" (some n) c =
        (lit word ++ (visit d n c).1, (visit d n c).2) := fun c => rfl
    have hleaves : (some n).toList.flatMap ExprNode.leaves = n.leaves := by simp
    refine ⟨fun c => ?_, fun c => ?_, fun c rest hslots hrest => ?_⟩
    · rw [hrun, visit_snd, hleaves]
    · rw [hrun, write_append, write_lit]
      exact follows_word List.mem_cons_self _
    · rw [hleaves] at hslots ⊢
      rw [hrun, write_append, write_lit]
      have htree := takes_tree (hw n rfl) c hslots (hrest.atClause hafter)
      exact takes_readClause (htree.map fun e => (some e.1, e.2))

/-- The grouping is read back. -/
theorem readBy_groupBy {ns : List ExprNode} (hns : ∀ n ∈ ns, n.Readable d)
    (hunlike : Unlike " GROUP BY " after = true) (hafter : AllClauses after = true) :
    ReadBy d slots (groupByClause d ns) (readGroupBy d slots) (ns.map (ExprNode.inDialect d))
      (ns.flatMap ExprNode.leaves) [" GROUP BY "] after := by
  cases ns with
  | nil =>
    refine ⟨fun c => (Context.record_nil c).symm, fun c => follows_nil _, ?_⟩
    exact fun c rest _ hrest => takes_noClause (hrest.dropPrefix? hunlike (by decide))
  | cons n ns =>
    have hwrites : Writes True [] (groupByClause d (n :: ns)) _ := writes_groupByClause (n :: ns)
    obtain ⟨text, hrecords⟩ := hwrites.records
    have hleaves : ((n :: ns).map (template d)).flatMap Template.slots =
        (n :: ns).flatMap ExprNode.leaves := by
      rw [List.flatMap_map]
      rfl
    have hrun : ∀ c, (groupByClause d (n :: ns) c).1 =
        lit " GROUP BY " ++ (visitList d (n :: ns) c).1 := by
      intro c
      have htext : (groupByClause d (n :: ns) c).1 =
          lit " GROUP BY " ++ (visitList d (n :: ns) c).1 ++ [] := rfl
      rw [htext, List.append_nil]
    refine ⟨fun c => ?_, fun c => ?_, fun c rest hslots hrest => ?_⟩
    · rw [hrecords, hleaves]
    · rw [hrun, write_append, write_lit]
      exact follows_word List.mem_cons_self _
    · rw [hrun, write_append, write_lit, ← inDialectList_eq_map]
      exact takes_readClause (takes_trees (List.cons_ne_nil n ns) hns c hslots
        (hrest.atClause hafter))

end Clauses

/-! ## Orderings -/

section Orderings

variable (d : Dialect) (slots : List ParameterSlot)

/-- `ASC` or `DESC`. -/
def readDir : Reader Char SortDir :=
  (do exactly " ASC".toList; return .asc) <|> (do exactly " DESC".toList; return .desc)

/-- At most `n` ordering terms. -/
def readOrderTerms : ℕ → ℕ → Reader Char (List OrderByExpr × ℕ)
  | 0, _ => failure
  | n + 1, k => do
    let (e, k) ← readTree d slots k
    let dir ← readDir
    readClause ", " [(e, dir)] (fun k => do
      let (os, k) ← readOrderTerms n k
      return ((e, dir) :: os, k)) k

/-- The terms of an ordering. One that only paging asks for has none. -/
def readOrderBy : ℕ → Reader Char (List OrderByExpr × ℕ) :=
  readClause " ORDER BY " [] fun k =>
    (do readOrderTerms d slots ((← get).length + 1) k) <|> do
      exactly "(SELECT NULL)".toList
      return ([], k)

variable {d slots} {after : List String} {rest : List Char}

theorem takes_dir (dir : SortDir) (rest : List Char) :
    Takes readDir dir.sql.toList dir rest := by
  cases dir with
  | asc => exact ((takes_exactly _ rest).map fun _ => SortDir.asc).orElse
  | desc =>
    exact Takes.orElse_right (run_bind_eq_none (run_exactly_eq_none rfl))
      ((takes_exactly _ rest).map fun _ => SortDir.desc)

/-- A direction ends the predicate before it. -/
theorem atClause_dir (dir : SortDir) (hrest : rest.head?.all isDelimiter = true) :
    AtClause (dir.sql.toList ++ rest) := by
  cases dir with
  | asc => exact Or.inr (beginsClause_word (v := "ASC".toList) (by decide) hrest)
  | desc => exact Or.inr (beginsClause_word (v := "DESC".toList) (by decide) hrest)

/-- The terms of an ordering are read back with their directions. -/
theorem takes_orderTerms {os : List OrderByExpr} (hne : os ≠ [])
    (hos : ∀ o ∈ os, o.1.Readable d) (c : Context)
    (hslots : (os.map Prod.fst).flatMap ExprNode.leaves <+: slots.drop c.paramCounter)
    (hrest : rest.head?.all isDelimiter = true) (hcomma : rest.dropPrefix? ", ".toList = none)
    {n : ℕ} (hn : os.length ≤ n) :
    Takes (readOrderTerms d slots n c.paramCounter) (d.write (visitOrderBy d os c).1)
      (os.map fun o => (o.1.inDialect d, o.2),
        c.paramCounter + ((os.map Prod.fst).flatMap ExprNode.leaves).length) rest := by
  induction os generalizing c n with
  | nil => contradiction
  | cons o os ih =>
    obtain ⟨e, dir⟩ := o
    obtain ⟨n, rfl⟩ := Nat.exists_eq_add_one_of_ne_zero (Nat.ne_zero_of_lt hn)
    rw [List.map_cons, List.flatMap_cons] at hslots
    obtain ⟨he, htail⟩ := prefix_drop_append hslots
    have hread := hos (e, dir) List.mem_cons_self
    cases os with
    | nil =>
      have hrun : (visitOrderBy d [(e, dir)] c).1 = (visit d e c).1 ++ lit dir.sql := rfl
      rw [hrun, write_append, write_lit, readOrderTerms]
      refine Takes.bind (takes_tree hread c he (atClause_dir dir hrest)) ?_
      refine Takes.bind_nil (takes_dir dir rest) ?_
      simpa using takes_noClause hcomma
    | cons o' os =>
      have hrun : (visitOrderBy d ((e, dir) :: o' :: os) c).1 =
          (visit d e c).1 ++ lit dir.sql ++ lit ", " ++
            (visitOrderBy d (o' :: os) (c.record e.leaves)).1 := by
        rw [← visit_snd d e]
        rfl
      have hmore := ih (List.cons_ne_nil o' os) (fun o ho => hos o (List.mem_cons_of_mem _ ho))
        (c.record e.leaves) htail (Nat.le_of_succ_le_succ hn)
      rw [hrun]
      simp only [write_append, write_lit, List.append_assoc]
      rw [readOrderTerms]
      refine Takes.bind (takes_tree hread c he ?_) ?_
      · rw [List.append_assoc]
        exact atClause_dir dir rfl
      refine Takes.bind (takes_dir dir _) (takes_readClause ?_)
      simpa [Nat.add_assoc] using hmore.map fun x => ((e.inDialect d, dir) :: x.1, x.2)

theorem length_visitOrderBy (os : List OrderByExpr) (c : Context) :
    os.length ≤ (d.write (visitOrderBy d os c).1).length := by
  have hdir : ∀ dir : SortDir, 1 ≤ dir.sql.toList.length := by
    rintro (_ | _) <;> decide
  induction os generalizing c with
  | nil => exact Nat.zero_le _
  | cons o os ih =>
    obtain ⟨e, dir⟩ := o
    have hone := hdir dir
    cases os with
    | nil =>
      have hrun : (visitOrderBy d [(e, dir)] c).1 = (visit d e c).1 ++ lit dir.sql := rfl
      rw [hrun, write_append, write_lit, List.length_append, List.length_singleton]
      omega
    | cons o' os =>
      have hrun : (visitOrderBy d ((e, dir) :: o' :: os) c).1 =
          (visit d e c).1 ++ lit dir.sql ++ lit ", " ++
            (visitOrderBy d (o' :: os) (visit d e c).2).1 := rfl
      have htail := ih (visit d e c).2
      rw [hrun]
      simp only [write_append, write_lit, List.length_append, List.length_cons] at htail ⊢
      omega

/-- The ordering that paging needs is no list of terms. -/
theorem run_readOrderTerms_selectNull (n k : ℕ) (rest : List Char) :
    (readOrderTerms d slots n k).run ("(SELECT NULL)".toList ++ rest) = none := by
  cases n with
  | zero => rfl
  | succ n =>
    have hlex : lexClause d.quotes clauseWords ⟨.idle, k, []⟩ ("(SELECT NULL)".toList ++ rest) =
        none := by
      cases d <;> rfl
    have htokens : (readTokens d k).run ("(SELECT NULL)".toList ++ rest) = none := by
      unfold readTokens
      rw [StateT.run, hlex]
      rfl
    exact run_bind_eq_none (run_bind_eq_none htokens)

/-- Without terms there may be the ordering that paging needs. -/
theorem readBy_noOrderBy (limit offset : Option ℕ) (paging : String)
    (hunlike : Unlike " ORDER BY " after = true) :
    ReadBy d slots (orderByClause d [] limit offset paging) (readOrderBy d slots) [] []
      [" ORDER BY "] after := by
  have hrun : ∀ c, orderByClause d [] limit offset paging c =
      (pagingOrder limit offset paging, c) := fun c => rfl
  have hpaging : pagingOrder limit offset paging = [] ∨
      pagingOrder limit offset paging = lit " ORDER BY (SELECT NULL)" := by
    unfold pagingOrder
    split
    · exact Or.inr rfl
    · exact Or.inl rfl
  refine ⟨fun c => (Context.record_nil c).symm, fun c => ?_, fun c rest _ hrest => ?_⟩
  · rw [hrun]
    rcases hpaging with h | h
    · rw [h]
      exact follows_nil _
    · rw [h]
      have hword : " ORDER BY " ∈ [" ORDER BY "] := List.mem_cons_self
      exact follows_word hword "(SELECT NULL)".toList
  · rw [hrun]
    rcases hpaging with h | h
    · rw [h]
      exact takes_noClause (hrest.dropPrefix? hunlike (by decide))
    · rw [h]
      have htext : d.write (lit " ORDER BY (SELECT NULL)") =
          " ORDER BY ".toList ++ "(SELECT NULL)".toList := rfl
      rw [htext]
      refine takes_readClause (Takes.orElse_right ?_ ?_)
      · exact run_readOrderTerms_selectNull _ _ rest
      · exact (takes_exactly _ rest).map fun _ => ([], c.paramCounter)

/-- The ordering is read back, the filler as no ordering. -/
theorem readBy_orderBy {os : List OrderByExpr} (hos : ∀ o ∈ os, o.1.Readable d)
    (limit offset : Option ℕ) (paging : String) (hunlike : Unlike " ORDER BY " after = true)
    (hafter : AllClauses after = true) :
    ReadBy d slots (orderByClause d os limit offset paging) (readOrderBy d slots)
      (os.map fun o => (o.1.inDialect d, o.2)) ((os.map Prod.fst).flatMap ExprNode.leaves)
      [" ORDER BY "] after := by
  cases os with
  | nil => exact readBy_noOrderBy limit offset paging hunlike
  | cons o os =>
    have hwrites : Writes True [] (orderByClause d (o :: os) limit offset paging) _ :=
      writes_orderByClause (o :: os) limit offset paging
    obtain ⟨text, hrecords⟩ := hwrites.records
    have hleaves : (((o :: os).map Prod.fst).map (template d)).flatMap Template.slots =
        ((o :: os).map Prod.fst).flatMap ExprNode.leaves := by
      rw [List.flatMap_map]
      rfl
    have hrun : ∀ c, (orderByClause d (o :: os) limit offset paging c).1 =
        lit " ORDER BY " ++ (visitOrderBy d (o :: os) c).1 := by
      intro c
      have htext : (orderByClause d (o :: os) limit offset paging c).1 =
          lit " ORDER BY " ++ (visitOrderBy d (o :: os) c).1 ++ [] := rfl
      rw [htext, List.append_nil]
    refine ⟨fun c => ?_, fun c => ?_, fun c rest hslots hrest => ?_⟩
    · rw [hrecords, hleaves]
    · rw [hrun, write_append, write_lit]
      exact follows_word List.mem_cons_self _
    · rw [hrun, write_append, write_lit]
      have hlength : (o :: os).length ≤
          (d.write (visitOrderBy d (o :: os) c).1 ++ rest).length + 1 := by
        have hterms := length_visitOrderBy (d := d) (o :: os) c
        rw [List.length_append]
        omega
      have hterms := takes_orderTerms (List.cons_ne_nil o os) hos c hslots
        (hrest.delimited hafter) (hrest.no_comma hafter) hlength
      exact takes_readClause (Takes.orElse hterms)

end Orderings

end CppLinq
