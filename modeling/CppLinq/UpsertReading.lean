import CppLinq.DmlStatements

/-!
# Reading upserts

The text of an upsert is read back as its statement on every dialect (`read_upsert`), whatever
the names in it are : as an `INSERT` with a conflict clause, or as a `MERGE` whose source is one
row of markers.
-/

namespace CppLinq

open Reader

section Upserts

variable {d : Dialect} {rest : List Char} {tableName : String} {ins conflict upd : List String}
  {values : List BoundValue}

/-- A column of the row that is there, and one of the new row. -/
theorem takes_old (c : String) (hrest : Stops d rest) :
    Takes (readOld d) (d.write (d.oldName c)) c rest := by
  cases d with
  | sqlite | postgres | mysql =>
    have hname : ∀ d : Dialect, Stops d rest → Takes (do exactly []; readName d)
        ([] ++ d.write (d.quoteId c)) c rest := fun d hd => takes_exactly_bind (takes_name c hd)
    exact hname _ hrest
  | mssql | informix | oracle =>
    rw [Dialect.oldName, write_append, write_lit]
    exact takes_exactly_bind (takes_name c hrest)

theorem takes_new (c : String) (hrest : Stops d rest) :
    Takes (readNew d) (d.write (d.newName c)) c rest := by
  cases d with
  | mysql =>
    have htext : Dialect.write .mysql (Dialect.newName .mysql c) =
        "VALUES(".toList ++ (Dialect.write .mysql (Dialect.quoteId .mysql c) ++
          (")".toList ++ [])) := by
      simp only [Dialect.newName, write_append, write_lit, List.append_assoc, List.append_nil]
    rw [htext]
    refine takes_exactly_bind ?_
    refine Takes.bind (takes_name c (stops_append (s := ")") rfl (by decide) rest)) ?_
    exact takes_exactly_bind (takes_pure c rest)
  | _ =>
    rw [Dialect.newName, write_append, write_lit]
    exact takes_exactly_bind (takes_name c hrest)

/-- The row that is there is not named like the new one. -/
theorem run_readNew_old (c : String) : (readNew d).run (d.write (d.oldName c) ++ rest) = none := by
  cases d with
  | sqlite | postgres | mysql =>
    rw [Dialect.oldName, write_quoteId]
    exact run_bind_eq_none (run_exactly_eq_none rfl)
  | mssql | informix | oracle =>
    rw [Dialect.oldName, write_append, write_lit]
    exact run_bind_eq_none (run_exactly_eq_none rfl)

/-- An assignment is read back. -/
theorem takes_set (c : String) (v : SetValue) (hrest : Stops d rest) :
    Takes (readSet d) (d.write (d.oldName c ++ lit " = " ++ v.text d)) (c, v) rest := by
  have htext : d.write (d.oldName c ++ lit " = " ++ v.text d) =
      d.write (d.oldName c) ++ (" = ".toList ++ (d.write (v.text d) ++ [])) := by
    simp only [write_append, write_lit, List.append_assoc, List.append_nil]
  rw [htext]
  refine Takes.bind (takes_old c (stops_append (s := " = ") rfl (by decide) _)) ?_
  refine takes_exactly_bind ?_
  refine Takes.bind (a := v) ?_ (takes_pure (c, v) rest)
  cases v with
  | new c' => exact ((takes_new c' hrest).map SetValue.new).orElse
  | old c' =>
    exact Takes.orElse_right (run_bind_eq_none (run_readNew_old c'))
      ((takes_old c' hrest).map SetValue.old)

/-- So are the assignments of an upsert. -/
theorem takes_sets {s : UpsertStatement} (hne : s.sets ≠ []) (hrest : Stops d rest)
    (hnone : rest.dropPrefix? ", ".toList = none) :
    Takes (readSets d) (d.write (s.setList d)) s.sets rest := by
  have htakes := takes_joinSep id (p := readSet d) ", " hne
    (fun p _ _ hr => takes_set p.1 p.2 hr) rfl (by decide) hrest hnone
  rwa [List.map_id] at htakes

/-- The columns of the new row, with their types. -/
def typedColumns (s : UpsertStatement) : List (String × Option String) :=
  s.inserted.map fun p => (p.1, p.2.type)

theorem numberedColumns_typedColumns :
    numberedColumns (typedColumns (d.upsertStatement tableName ins values conflict upd)) =
      (d.upsertStatement tableName ins values conflict upd).inserted := by
  refine List.ext_getElem (by simp [numberedColumns, typedColumns]) fun i hi hi' => ?_
  simp [numberedColumns, typedColumns, Dialect.upsertStatement]

/-- Only Informix casts. -/
theorem typedColumns_of_ne (hd : d ≠ .informix) :
    typedColumns (d.upsertStatement tableName ins values conflict upd) =
      ins.map fun c => (c, none) := by
  have hcast : ∀ v, d.upsertCast v = none := by
    intro v
    cases d with
    | informix => contradiction
    | _ => rfl
  refine List.ext_getElem (by simp [typedColumns, Dialect.upsertStatement]) fun i hi hi' => ?_
  simp [typedColumns, Dialect.upsertStatement, hcast]

theorem numberedColumns_of_ne (hd : d ≠ .informix) :
    numberedColumns (ins.map fun c => (c, none)) =
      (d.upsertStatement tableName ins values conflict upd).inserted := by
  rw [← numberedColumns_typedColumns, typedColumns_of_ne hd]

/-! ## Conflict clauses -/

/-- The text of the insertion. -/
theorem write_insertText (hd : d ≠ .informix) (tail : Text) :
    d.write ((d.upsertStatement tableName ins values conflict upd).insertText d ++ tail) =
      "INSERT INTO ".toList ++ (d.write (d.quoteId tableName) ++
        (" (".toList ++ (d.write (d.columnList ins) ++ (") VALUES (".toList ++
          (d.write (Dialect.placeholderList ins.length) ++ (")".toList ++ d.write tail)))))) := by
  rw [UpsertStatement.insertText, markers_upsertStatement hd, columns_upsertStatement]
  simp only [write_append, write_lit, List.append_assoc]
  rfl

/-- The upserts of SQLite and PostgreSQL are read back. -/
theorem read_onConflict (hins : ins ≠ []) (hconflict : conflict ≠ [])
    (h : d = .sqlite ∨ d = .postgres) :
    readDml d (d.write ((d.upsertStatement tableName ins values conflict upd).write d)) =
      some (.upsert (d.upsertStatement tableName ins values conflict upd)) := by
  have hne : d ≠ .informix := by rcases h with rfl | rfl <;> decide
  have hmatched : (d.upsertStatement tableName ins values conflict upd).matchedOn =
      some conflict := by rcases h with rfl | rfl <;> rfl
  have hwrite : (d.upsertStatement tableName ins values conflict upd).write d =
      (d.upsertStatement tableName ins values conflict upd).insertText d ++
        (lit " ON CONFLICT (" ++ (d.columnList conflict ++
        if (d.upsertStatement tableName ins values conflict upd).sets.isEmpty then
          lit ") DO NOTHING"
        else lit ") DO UPDATE SET " ++
          (d.upsertStatement tableName ins values conflict upd).setList d)) := by
    rcases h with rfl | rfl <;>
      simp only [UpsertStatement.write, Dialect.upsertStatement, if_neg, reduceCtorEq,
        not_false_eq_true, Option.getD_some, List.append_assoc]
  have hstatement : DmlStatement.upsert ⟨tableName, numberedColumns (ins.map fun c => (c, none)),
      some conflict, (d.upsertStatement tableName ins values conflict upd).sets⟩ =
        .upsert (d.upsertStatement tableName ins values conflict upd) := by
    have hinserted : numberedColumns (ins.map fun c => (c, none)) =
        (d.upsertStatement tableName ins values conflict upd).inserted := numberedColumns_of_ne hne
    rw [hinserted, ← hmatched]
    rfl
  have hread : readConflict d tableName ins = (do
      exactly " ON CONFLICT (".toList
      let key ← readNames d
      (do
        exactly ") DO NOTHING".toList
        atEnd
        return .upsert ⟨tableName, numberedColumns (ins.map fun c => (c, none)), some key, []⟩) <|>
          do
        exactly ") DO UPDATE SET ".toList
        let sets ← readSets d
        atEnd
        return .upsert ⟨tableName, numberedColumns (ins.map fun c => (c, none)), some key,
          sets⟩) := by
    rcases h with rfl | rfl <;> rfl
  rw [hwrite, write_insertText hne, ← hstatement]
  refine Takes.readDml_eq (Takes.orElse (Takes.orElse (takes_values tableName hins
    (Takes.orElse_right ?_ ?_))))
  · rw [write_append, write_lit]
    exact run_bind_eq_none rfl
  rw [hread, write_append, write_append, write_lit]
  split
  · rename_i hsets
    rw [List.isEmpty_iff.mp hsets, write_lit]
    refine takes_exactly_bind ?_
    refine Takes.bind (takes_names hconflict ?_ rfl)
      (Takes.bind_nil (takes_exactly _ []) takes_end).orElse
    exact stops_append (s := ") DO NOTHING") rfl (by decide) []
  · rename_i hsets
    have hne' : (d.upsertStatement tableName ins values conflict upd).sets ≠ [] := by
      simpa using hsets
    rw [write_append, write_lit]
    refine takes_exactly_bind ?_
    refine Takes.bind (takes_names hconflict
      (stops_append (s := ") DO UPDATE SET ") rfl (by decide) _) rfl) ?_
    refine Takes.orElse_right (run_bind_eq_none (run_exactly_eq_none rfl)) ?_
    refine takes_exactly_bind ?_
    exact Takes.bind_nil (takes_sets hne' stops_nil rfl) takes_end

/-- The upsert of MySQL is read back. -/
theorem read_onDuplicate (hins : ins ≠ []) (hconflict : conflict ≠ []) :
    readDml .mysql (Dialect.write .mysql
        ((Dialect.upsertStatement .mysql tableName ins values conflict upd).write .mysql)) =
      some (.upsert (Dialect.upsertStatement .mysql tableName ins values conflict upd)) := by
  have hsets : (Dialect.upsertStatement .mysql tableName ins values conflict upd).sets ≠ [] := by
    obtain ⟨c, conflict', rfl⟩ := List.exists_cons_of_ne_nil hconflict
    cases upd <;> simp [Dialect.upsertStatement]
  have hinserted : numberedColumns (ins.map fun c => (c, none)) =
      (Dialect.upsertStatement .mysql tableName ins values conflict upd).inserted :=
    numberedColumns_of_ne (by decide)
  rw [UpsertStatement.write, List.append_assoc, write_insertText (by decide), write_append,
    write_lit]
  refine Takes.readDml_eq (Takes.orElse (Takes.orElse (takes_values tableName hins
    (Takes.orElse_right (run_bind_eq_none rfl) ?_))))
  refine takes_exactly_bind ?_
  refine Takes.bind_nil (takes_sets hsets stops_nil rfl) ?_
  rw [hinserted]
  exact takes_end

/-! ## Merges -/

/-- An equality of the match is read back. -/
theorem takes_match (c : String) (hrest : Stops d rest) :
    Takes (readMatch d) (d.write (d.oldName c ++ lit " = " ++ d.newName c)) c rest := by
  have htext : d.write (d.oldName c ++ lit " = " ++ d.newName c) =
      d.write (d.oldName c) ++ (" = ".toList ++ d.write (d.newName c)) := by
    simp only [write_append, write_lit, List.append_assoc]
  rw [htext]
  refine Takes.bind (takes_old c (stops_append (s := " = ") rfl (by decide) _)) ?_
  refine takes_exactly_bind ?_
  refine Takes.bind_nil (takes_new c hrest) ?_
  rw [if_pos rfl]
  exact takes_pure c rest

/-- Symbols at which `stop` cannot begin are read over. -/
theorem takes_readUntil {stop : List Char} {c : Char} (hstop : stop.head? = some c)
    {xs ys : List Char} (hxs : c ∉ xs) (h : Takes (readUntil stop) ys ys rest) :
    Takes (readUntil stop) (xs ++ ys) (xs ++ ys) rest := by
  induction xs with
  | nil => exact h
  | cons x xs ih =>
    rw [List.mem_cons, not_or] at hxs
    have hprefix : stop.isPrefixOf (x :: (xs ++ ys ++ rest)) = false := by
      cases stop with
      | nil => cases hstop
      | cons s stop =>
        obtain rfl : s = c := Option.some.inj hstop
        simp [List.isPrefixOf, hxs.1]
    have hxs' : readUntil stop (xs ++ ys ++ rest) = some (xs ++ ys, rest) := ih hxs.2
    rw [Takes, StateT.run, List.cons_append, List.cons_append, readUntil, hprefix,
      if_neg Bool.false_ne_true, hxs']
    rfl

/-- No type has the end of a cast in it. -/
theorem takes_castType (v : BoundValue) (rest : List Char) :
    Takes (readUntil ") AS ".toList) (Dialect.informixCastType v).toList
      (Dialect.informixCastType v).toList (") AS ".toList ++ rest) := by
  have htext : ∀ (short : String) (size : ℕ), Takes (readUntil ") AS ".toList) short.toList
      short.toList (") AS ".toList ++ rest) → Takes (readUntil ") AS ".toList)
        (Dialect.informixTextType short size).toList (Dialect.informixTextType short size).toList
        (") AS ".toList ++ rest) := by
    intro short size hshort
    unfold Dialect.informixTextType
    split
    · have hlist : ("LVARCHAR(" ++ (min size 32739).repr ++ ")").toList =
          ("LVARCHAR(".toList ++ decimal (min size 32739)) ++ ")".toList := by
        rw [String.toList_append, String.toList_append, Nat.toList_repr]
        rfl
      have hdigits : ')' ∉ "LVARCHAR(".toList ++ decimal (min size 32739) := by
        rw [List.mem_append, not_or]
        refine ⟨by decide, fun hmem => ?_⟩
        exact absurd (isDigit_of_mem_decimal hmem) (by decide)
      rw [hlist]
      exact takes_readUntil rfl hdigits rfl
    · exact hshort
  cases v with
  | string v => exact htext _ _ rfl
  | wstring v => exact htext _ _ rfl
  | _ =>
    rw [Dialect.informixCastType]
    exact rfl

theorem inserted_upsertStatement_ne (hins : ins ≠ []) :
    (d.upsertStatement tableName ins values conflict upd).inserted ≠ [] := by
  simpa [Dialect.upsertStatement] using hins

/-- The sources of the `MERGE`s, one lemma for each dialect. -/
theorem takes_source_mssql (hins : ins ≠ []) :
    Takes (readSource .mssql)
      (Dialect.write .mssql ((Dialect.upsertStatement .mssql tableName ins values conflict
        upd).sourceText .mssql))
      (typedColumns (Dialect.upsertStatement .mssql tableName ins values conflict upd)) rest := by
  have hlength : ins.length ≠ 0 := fun h => hins (List.length_eq_zero_iff.mp h)
  have hwrite : Dialect.write .mssql ((Dialect.upsertStatement .mssql tableName ins values
      conflict upd).sourceText .mssql) =
      " WITH (HOLDLOCK) AS [target] USING (VALUES (".toList ++
        (Dialect.write .mssql (Dialect.placeholderList ins.length) ++
          (")) AS [source] (".toList ++ (Dialect.write .mssql (Dialect.columnList .mssql ins) ++
            ")".toList))) := by
    rw [UpsertStatement.sourceText]
    simp only [markers_upsertStatement (show Dialect.mssql ≠ .informix by decide),
      columns_upsertStatement, write_append, write_lit, List.append_assoc]
  rw [hwrite, typedColumns_of_ne (by decide)]
  refine takes_exactly_bind ?_
  refine Takes.bind (takes_markers hlength
    (stops_append (s := ")) AS [source] (") rfl (by decide) _) rfl) ?_
  refine takes_exactly_bind ?_
  refine Takes.bind (takes_names hins (stops_append (s := ")") rfl (by decide) _) rfl) ?_
  refine Takes.bind_nil (takes_exactly _ rest) ?_
  rw [if_pos (by simp)]
  exact takes_pure _ rest

theorem takes_source_informix (hins : ins ≠ []) :
    Takes (readSource .informix)
      (Dialect.write .informix ((Dialect.upsertStatement .informix tableName ins values conflict
        upd).sourceText .informix))
      (typedColumns (Dialect.upsertStatement .informix tableName ins values conflict upd))
      rest := by
  have hne : (Dialect.upsertStatement .informix tableName ins values conflict upd).inserted ≠ [] :=
    inserted_upsertStatement_ne hins
  have hwrite : Dialect.write .informix ((Dialect.upsertStatement .informix tableName ins values
      conflict upd).sourceText .informix) = " AS target USING (SELECT ".toList ++
        (Dialect.write .informix (commaList ((Dialect.upsertStatement .informix tableName ins
          values conflict upd).inserted.map fun p => p.2.text ++ lit " AS " ++
            Dialect.quoteId .informix p.1)) ++
          " FROM \"informix\".systables WHERE tabid = 1) AS source".toList) := by
    rw [UpsertStatement.sourceText]
    simp only [write_append, write_lit, List.append_assoc]
  rw [hwrite]
  refine takes_exactly_bind ?_
  refine Takes.bind (takes_joinSep (fun p => (p.1, p.2.type)) ", " hne (fun p hp r hr => ?_) rfl
    (by decide) (stops_append (s := " FROM \"informix\".systables WHERE tabid = 1) AS source")
      rfl (by decide) rest) rfl) (Takes.bind_nil (takes_exactly _ rest) (takes_pure _ rest))
  obtain ⟨i, v, c, rfl⟩ : ∃ (i : ℕ) (v : BoundValue) (c : String),
      p = (c, ⟨i, some (Dialect.informixCastType v)⟩) := by
    obtain ⟨i, hi, rfl⟩ := List.mem_mapIdx.mp hp
    exact ⟨i, _, _, rfl⟩
  have htext : Dialect.write .informix ((UpsertParam.mk i
      (some (Dialect.informixCastType v))).text ++ lit " AS " ++ Dialect.quoteId .informix c) =
      "CAST(? AS ".toList ++ ((Dialect.informixCastType v).toList ++ (") AS ".toList ++
        Dialect.write .informix (Dialect.quoteId .informix c))) := by
    simp only [UpsertParam.text, write_append, write_lit, String.toList_append,
      List.append_assoc]
    rfl
  rw [htext]
  refine takes_exactly_bind ?_
  refine Takes.bind (takes_castType v _) ?_
  refine takes_exactly_bind ?_
  refine Takes.bind_nil (takes_name c hr) ?_
  rw [String.ofList_toList]
  exact takes_pure _ r

theorem takes_source_oracle (hins : ins ≠ []) :
    Takes (readSource .oracle)
      (Dialect.write .oracle ((Dialect.upsertStatement .oracle tableName ins values conflict
        upd).sourceText .oracle))
      (typedColumns (Dialect.upsertStatement .oracle tableName ins values conflict upd)) rest := by
  have hne : (Dialect.upsertStatement .oracle tableName ins values conflict upd).inserted ≠ [] :=
    inserted_upsertStatement_ne hins
  have hwrite : Dialect.write .oracle ((Dialect.upsertStatement .oracle tableName ins values
      conflict upd).sourceText .oracle) = " target USING (SELECT ".toList ++
        (Dialect.write .oracle (commaList ((Dialect.upsertStatement .oracle tableName ins
          values conflict upd).inserted.map fun p => p.2.text ++ lit " AS " ++
            Dialect.quoteId .oracle p.1)) ++ " FROM DUAL) source".toList) := by
    unfold UpsertStatement.sourceText
    simp only [write_append, write_lit, List.append_assoc]
  have htyped : typedColumns (Dialect.upsertStatement .oracle tableName ins values conflict upd) =
      ((Dialect.upsertStatement .oracle tableName ins values conflict upd).inserted.map
        Prod.fst).map fun c => (c, none) := by
    have hcolumns : (Dialect.upsertStatement .oracle tableName ins values conflict
        upd).inserted.map Prod.fst = ins := columns_upsertStatement
    rw [typedColumns_of_ne (by decide), hcolumns]
  rw [hwrite, htyped]
  refine takes_exactly_bind ?_
  refine Takes.bind (takes_joinSep Prod.fst ", " hne (fun p hp r hr => ?_) rfl
    (by decide) (stops_append (s := " FROM DUAL) source") rfl (by decide) rest) rfl)
      (Takes.bind_nil (takes_exactly _ rest) (takes_pure _ rest))
  obtain ⟨i, c, rfl⟩ : ∃ (i : ℕ) (c : String), p = (c, ⟨i, none⟩) := by
    obtain ⟨i, hi, rfl⟩ := List.mem_mapIdx.mp hp
    exact ⟨i, _, rfl⟩
  have htext : Dialect.write .oracle ((UpsertParam.mk i none).text ++ lit " AS " ++
      Dialect.quoteId .oracle c) = "? AS ".toList ++
        Dialect.write .oracle (Dialect.quoteId .oracle c) := by
    simp only [UpsertParam.text, write_append, write_lit]
    rfl
  rw [htext]
  exact takes_exactly_bind (takes_name c hr)

/-- The source of a merge is its typed columns. -/
theorem takes_source (hd : d = .mssql ∨ d = .informix ∨ d = .oracle) (hins : ins ≠ []) :
    Takes (readSource d)
      (d.write ((d.upsertStatement tableName ins values conflict upd).sourceText d))
      (typedColumns (d.upsertStatement tableName ins values conflict upd)) rest := by
  rcases hd with rfl | rfl | rfl
  · exact takes_source_mssql hins
  · exact takes_source_informix hins
  · exact takes_source_oracle hins

theorem stops_source (hd : d = .mssql ∨ d = .informix ∨ d = .oracle) (s : UpsertStatement)
    (rest : List Char) : Stops d (d.write (s.sourceText d) ++ rest) := by
  have hblank : ∃ tail, d.write (s.sourceText d) = " ".toList ++ tail := by
    unfold UpsertStatement.sourceText
    rcases hd with rfl | rfl | rfl <;> simp only [write_append, write_lit, List.append_assoc] <;>
      exact ⟨_, rfl⟩
  obtain ⟨tail, htail⟩ := hblank
  rw [htail, List.append_assoc]
  exact stops_append (s := " ") rfl (by decide) _

/-- A `MERGE` is read back, behind its source. -/
theorem takes_merge {s : UpsertStatement} {key names : List String}
    (hd : d = .mssql ∨ d = .informix ∨ d = .oracle)
    (hsource : ∀ rest, Takes (readSource d) (d.write (s.sourceText d)) (typedColumns s) rest)
    (hinserted : numberedColumns (typedColumns s) = s.inserted) (hmatched : s.matchedOn = some key)
    (hkey : key ≠ []) (hcolumns : s.columns = names) (hnames : names ≠ []) :
    Takes (readMerge d) (d.write (s.write d)) (.upsert s) [] := by
  have hlast : ∃ last : String, last.toList.head? = some ')' ∧
      (last.toList ++ []).dropPrefix? ", ".toList = none ∧
      (if d = .mssql then ");".toList else ")".toList) = last.toList ∧
      d.write (s.write d) = "MERGE INTO ".toList ++ (d.write (d.quoteId s.tableName) ++
        (d.write (s.sourceText d) ++ (" ON (".toList ++ (d.write (andList (key.map fun c =>
            d.oldName c ++ lit " = " ++ d.newName c)) ++ (")".toList ++
          (d.write (if s.sets.isEmpty then [] else
            lit " WHEN MATCHED THEN UPDATE SET " ++ s.setList d) ++
          (" WHEN NOT MATCHED THEN INSERT (".toList ++ (d.write (d.columnList names) ++
            (") VALUES (".toList ++ (d.write (commaList (names.map d.newName)) ++
              last.toList)))))))))) := by
    have hmerge : d.write (s.mergeText d) = "MERGE INTO ".toList ++
        (d.write (d.quoteId s.tableName) ++
        (d.write (s.sourceText d) ++ (" ON (".toList ++ (d.write (andList (key.map fun c =>
            d.oldName c ++ lit " = " ++ d.newName c)) ++ (")".toList ++
          (d.write (if s.sets.isEmpty then [] else
            lit " WHEN MATCHED THEN UPDATE SET " ++ s.setList d) ++
          (" WHEN NOT MATCHED THEN INSERT (".toList ++ (d.write (d.columnList names) ++
            (") VALUES (".toList ++ (d.write (commaList (names.map d.newName)) ++
              ")".toList)))))))))) := by
      rw [UpsertStatement.mergeText, hmatched, hcolumns]
      simp only [write_append, write_lit, List.append_assoc, Option.getD_some]
    rcases hd with rfl | rfl | rfl
    · refine ⟨");", rfl, rfl, rfl, ?_⟩
      rw [UpsertStatement.write, write_append, hmerge, write_lit]
      simp only [List.append_assoc]
      rfl
    · exact ⟨")", rfl, rfl, rfl, hmerge⟩
    · exact ⟨")", rfl, rfl, rfl, hmerge⟩
  obtain ⟨last, hhead, hnone, hend, hwrite⟩ := hlast
  rw [hwrite, readMerge, hend]
  refine takes_exactly_bind ?_
  refine Takes.bind (takes_name s.tableName (by
    rw [List.append_assoc]
    exact stops_source hd s _)) ?_
  refine Takes.bind (hsource _) ?_
  refine takes_exactly_bind ?_
  refine Takes.bind (takes_joinSep id " AND " hkey (fun c _ _ hr => takes_match c hr) rfl
    (by decide) (stops_append (s := ")") rfl (by decide) _) rfl) ?_
  refine takes_exactly_bind ?_
  refine Takes.bind (a := s.sets) ?_ ?_
  · split
    · rename_i hsets
      rw [List.isEmpty_iff.mp hsets]
      exact Takes.orElse_right (run_bind_eq_none (run_exactly_eq_none rfl)) (takes_pure [] _)
    · rename_i hsets
      have hne : s.sets ≠ [] := by simpa using hsets
      rw [write_append, write_lit]
      exact (takes_exactly_bind (takes_sets hne (stops_append
        (s := " WHEN NOT MATCHED THEN INSERT (") rfl (by decide) _) rfl)).orElse
  refine takes_exactly_bind ?_
  refine Takes.bind (takes_names hnames (stops_append (s := ") VALUES (") rfl (by decide) _) rfl)
    ?_
  refine takes_exactly_bind ?_
  refine Takes.bind (takes_joinSep id ", " hnames (fun c _ _ hr => takes_new c hr) rfl
    (by decide) (stops_append hhead (by decide) _) hnone) ?_
  refine Takes.bind_nil (takes_exactly last.toList []) ?_
  have htyped : (typedColumns s).map Prod.fst = names := by
    rw [← hcolumns, typedColumns, List.map_map]
    rfl
  rw [List.map_id, List.map_id, if_pos ⟨htyped.symm, rfl⟩, hinserted, ← hmatched]
  exact takes_end

theorem write_merge_head (hd : d = .mssql ∨ d = .informix ∨ d = .oracle) (s : UpsertStatement) :
    ∃ tail, d.write (s.write d) = "MERGE INTO ".toList ++ tail := by
  have hmerge : ∃ tail, d.write (s.mergeText d) = "MERGE INTO ".toList ++ tail := by
    rw [UpsertStatement.mergeText]
    simp only [write_append, write_lit, List.append_assoc]
    exact ⟨_, rfl⟩
  obtain ⟨tail, htail⟩ := hmerge
  rcases hd with rfl | rfl | rfl
  · refine ⟨tail ++ ";".toList, ?_⟩
    rw [UpsertStatement.write, write_append, htail, write_lit, List.append_assoc]
  · exact ⟨tail, htail⟩
  · exact ⟨tail, htail⟩

/-- On every dialect the text of an upsert is read back. -/
theorem read_upsert (d : Dialect) (tableName : String) {ins conflict : List String}
    (upd : List String) (values : List BoundValue) (hins : ins ≠ []) (hconflict : conflict ≠ []) :
    readDml d (d.write ((d.upsertStatement tableName ins values conflict upd).write d)) =
      some (.upsert (d.upsertStatement tableName ins values conflict upd)) := by
  have hmerge : ∀ d : Dialect, d = .mssql ∨ d = .informix ∨ d = .oracle →
      (d.upsertStatement tableName ins values conflict upd).matchedOn = some conflict →
      readDml d (d.write ((d.upsertStatement tableName ins values conflict upd).write d)) =
        some (.upsert (d.upsertStatement tableName ins values conflict upd)) := by
    intro d hd hmatched
    have htakes := takes_merge hd (fun _ => takes_source hd hins)
      numberedColumns_typedColumns hmatched hconflict columns_upsertStatement hins
    obtain ⟨tail, htail⟩ := write_merge_head hd
      (d.upsertStatement tableName ins values conflict upd)
    refine Takes.readDml_eq (Takes.orElse_right ?_ (Takes.orElse_right ?_ htakes))
    · rw [htail]
      exact run_orElse_eq_none (run_bind_eq_none (run_exactly_eq_none rfl))
        (run_bind_eq_none (run_exactly_eq_none rfl))
    · rw [htail]
      exact run_bind_eq_none (run_exactly_eq_none rfl)
  cases d with
  | sqlite => exact read_onConflict hins hconflict (Or.inl rfl)
  | postgres => exact read_onConflict hins hconflict (Or.inr rfl)
  | mysql => exact read_onDuplicate hins hconflict
  | mssql => exact hmerge .mssql (Or.inl rfl) rfl
  | informix => exact hmerge .informix (Or.inr (Or.inl rfl)) rfl
  | oracle => exact hmerge .oracle (Or.inr (Or.inr rfl)) rfl

end Upserts

end CppLinq
