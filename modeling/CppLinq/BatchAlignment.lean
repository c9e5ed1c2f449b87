import CppLinq.BatchPlan
import Mathlib.Algebra.GroupWithZero.Nat

/-!
# Chunks and columns of batch operations

`insert_many`, `update_many` and `delete_many` write the values of their rows twice : once
to flat vectors, a chunk at a time, and once to the parameters of a statement, row by row.
The loop over chunks counts in `size_t` (`batches`) and covers the list whatever its chunk
size (`batches_eq_chunks`). Both ways go over the columns in loops of their own (`pushRow`,
`pushKeyed`, `bindKeyed`) and write the same values (`batch_alignment`).
-/

namespace CppLinq

/-! ## The loop over chunks -/

section Loop

variable {α : Type} {chunkSize size offset : UInt64}

/-- `for (offset = 0; offset < size; offset += chunk_size)`, with the number of elements of
each turn. The addition wraps. -/
def chunkLoop (chunkSize size : UInt64) : ℕ → UInt64 → List (UInt64 × UInt64)
  | 0, _ => []
  | turns + 1, offset =>
    if offset < size then
      (offset, if size - offset < chunkSize then size - offset else chunkSize) ::
        chunkLoop chunkSize size turns (offset + chunkSize)
    else []

/-- The chunks that the loop takes from a list, in at most `turns` turns. -/
def batches (chunkSize : UInt64) (turns : ℕ) (xs : List α) : List (List α) :=
  (chunkLoop chunkSize (.ofNat xs.length) turns 0).map fun turn =>
    (xs.drop turn.1.toNat).take turn.2.toNat

/-- The first chunk, and those of the rest. -/
theorem chunks_of_ne_nil {size : ℕ} (hsize : 0 < size) {xs : List α} (hxs : xs ≠ []) :
    chunks size xs = xs.take size :: chunks size (xs.drop size) := by
  have hlength : 0 < xs.length := List.length_pos_of_ne_nil hxs
  have hcount : (xs.length + size - 1) / size = (xs.length - size + size - 1) / size + 1 := by
    by_cases h : xs.length ≤ size
    · have hfirst : (xs.length + size - 1) / size = 1 :=
        Nat.div_eq_of_lt_le (by omega) (by omega)
      have hrest : (xs.length - size + size - 1) / size = 0 := Nat.div_eq_of_lt (by omega)
      rw [hfirst, hrest]
    · have hsum : xs.length + size - 1 = xs.length - size + size - 1 + size := by omega
      rw [hsum, Nat.add_div_right _ hsize]
  rw [chunks, chunks, parts, parts, List.length_drop, hcount, List.range_succ_eq_map,
    List.map_cons, List.map_map, Nat.zero_mul, List.drop_zero]
  refine congrArg _ (List.map_congr_left fun i _ => ?_)
  rw [Function.comp_apply, List.drop_drop, Nat.succ_mul, Nat.add_comm size]

/-- The loop from an offset takes the chunks of the rest of the list. An offset but the
first is at least a chunk, so the addition does not wrap before the loop ends. -/
theorem map_chunkLoop (hpos : 0 < chunkSize.toNat) (xs : List α) (hxs : xs.length < 2 ^ 63) :
    ∀ (turns : ℕ) (offset : UInt64), xs.length < turns + offset.toNat →
      offset = 0 ∨ chunkSize ≤ offset →
      (chunkLoop chunkSize (.ofNat xs.length) turns offset).map (fun turn =>
        (xs.drop turn.1.toNat).take turn.2.toNat) =
        chunks chunkSize.toNat (xs.drop offset.toNat)
  | 0, offset, hturns, _ => by
    rw [List.drop_eq_nil_of_le (by omega), chunks_nil]
    rfl
  | turns + 1, offset, hturns, hoffset => by
    have hsize : (UInt64.ofNat xs.length).toNat = xs.length :=
      UInt64.toNat_ofNat_of_lt' (by simp only [UInt64.size]; omega)
    rw [chunkLoop]
    split
    · rename_i hlt
      have hlt' : offset.toNat < xs.length := by
        have h := UInt64.lt_iff_toNat_lt.mp hlt
        rwa [hsize] at h
      have hsub : (UInt64.ofNat xs.length - offset).toNat = xs.length - offset.toNat := by
        rw [UInt64.toNat_sub_of_le _ _ (UInt64.le_of_lt hlt), hsize]
      have hadd : (offset + chunkSize).toNat = offset.toNat + chunkSize.toNat := by
        have hchunk := chunkSize.toNat_lt
        rw [UInt64.toNat_add]
        refine Nat.mod_eq_of_lt ?_
        rcases hoffset with rfl | hle
        · simpa using hchunk
        · have hle' := UInt64.le_iff_toNat_le.mp hle
          omega
      have hne : xs.drop offset.toNat ≠ [] := by
        rw [Ne, List.drop_eq_nil_iff]
        omega
      have hcount : (if UInt64.ofNat xs.length - offset < chunkSize then
          UInt64.ofNat xs.length - offset else chunkSize).toNat =
          min chunkSize.toNat (xs.length - offset.toNat) := by
        split
        · rename_i hrest
          have h := UInt64.lt_iff_toNat_lt.mp hrest
          omega
        · rename_i hrest
          have h := UInt64.le_iff_toNat_le.mp (UInt64.not_lt.mp hrest)
          omega
      have hrest := map_chunkLoop hpos xs hxs turns (offset + chunkSize)
        (by omega) (Or.inr (UInt64.le_iff_toNat_le.mpr (by omega)))
      have htake : (xs.drop offset.toNat).take (min chunkSize.toNat (xs.length - offset.toNat)) =
          (xs.drop offset.toNat).take chunkSize.toNat := by
        rw [← List.length_drop, ← List.take_eq_take_min]
      rw [List.map_cons, hrest, chunks_of_ne_nil hpos hne, List.drop_drop, hadd, hcount, htake]
    · rename_i hge
      have hge' : xs.length ≤ offset.toNat := by
        have h := UInt64.not_lt.mp hge
        have h' := UInt64.le_iff_toNat_le.mp h
        rwa [hsize] at h'
      rw [List.drop_eq_nil_of_le hge', chunks_nil]
      rfl

/-- The loop ends, and takes the chunks of the list. -/
theorem batches_eq_chunks (hpos : chunkSize ≠ 0) {xs : List α} (hxs : xs.length < 2 ^ 63)
    {turns : ℕ} (hturns : xs.length < turns) :
    batches chunkSize turns xs = chunks chunkSize.toNat xs := by
  have hpos' : 0 < chunkSize.toNat :=
    Nat.pos_of_ne_zero fun h => hpos (UInt64.toNat_inj.mp h)
  exact map_chunkLoop hpos' xs hxs turns 0 (by simpa using hturns) (Or.inl rfl)

end Loop

/-! ## The loops over columns -/

section Columns

variable {E : Type}

/-- `insert_many` on the array path : push the values that are not generated. -/
def pushRow (columns : List (ColumnDef E)) (e : E) (flat : List BoundValue) : List BoundValue :=
  columns.foldl (fun flat col => if !col.isAutoIncrement then flat ++ [col.value e] else flat) flat

/-- `insert_many` on the other path : bind them, counting positions. -/
def bindRow (columns : List (ColumnDef E)) (e : E) : List DriverCall :=
  (columns.foldl (fun (idx, calls) col =>
    if !col.isAutoIncrement then (idx + 1, calls ++ [DriverCall.bind idx (col.value e)])
    else (idx, calls)) (0, [])).2

/-- `update_many` on the array path : the values of ordinary columns and those of keys. -/
def pushKeyed (columns : List (ColumnDef E)) (e : E) : List BoundValue × List BoundValue :=
  columns.foldl (fun (updateVals, pkVals) col =>
    if !col.isPrimaryKey then (updateVals ++ [col.value e], pkVals)
    else (updateVals, pkVals ++ [col.value e])) ([], [])

/-- `update_many` on the other path : bind the values of ordinary columns, then those of keys. -/
def bindKeyed (columns : List (ColumnDef E)) (e : E) : List DriverCall :=
  let (idx, calls, pkVals) := columns.foldl (fun (idx, calls, pkVals) col =>
    if !col.isPrimaryKey then (idx + 1, calls ++ [DriverCall.bind idx (col.value e)], pkVals)
    else (idx, calls, pkVals ++ [col.value e])) (0, [], [])
  calls ++ bindCalls idx pkVals

/-- The last value is bound last. -/
theorem bindCalls_concat (vs : List BoundValue) (v : BoundValue) :
    bindCalls 0 (vs ++ [v]) = bindCalls 0 vs ++ [.bind vs.length v] := by
  rw [bindCalls_append, Nat.zero_add]
  rfl

/-- The loop over the columns appends the values of the inserted columns. -/
theorem pushRow_eq (table : TableDef E) (e : E) (flat : List BoundValue) :
    pushRow table.columns e flat = flat ++ rowValues table.insertColumns e := by
  rw [pushRow, TableDef.insertColumns]
  induction table.columns generalizing flat with
  | nil => exact (List.append_nil _).symm
  | cons col cols ih =>
    rw [List.foldl_cons, ih, List.filter_cons]
    cases col.isAutoIncrement <;> simp [rowValues]

/-- The other loop binds them. -/
theorem bindRow_eq (table : TableDef E) (e : E) :
    bindRow table.columns e = bindCalls 0 (rowValues table.insertColumns e) := by
  have hfold : ∀ (cols : List (ColumnDef E)) (vs : List BoundValue),
      cols.foldl (fun (idx, calls) col =>
        if !col.isAutoIncrement then (idx + 1, calls ++ [DriverCall.bind idx (col.value e)])
        else (idx, calls)) (vs.length, bindCalls 0 vs) =
      ((vs ++ rowValues (cols.filter (!·.isAutoIncrement)) e).length,
        bindCalls 0 (vs ++ rowValues (cols.filter (!·.isAutoIncrement)) e)) := by
    intro cols
    induction cols with
    | nil => simp [rowValues]
    | cons col cols ih =>
      intro vs
      rw [List.foldl_cons, List.filter_cons]
      cases col.isAutoIncrement with
      | true => simpa using ih vs
      | false =>
        have hih := ih (vs ++ [col.value e])
        rw [bindCalls_concat, List.length_append] at hih
        simpa [rowValues] using hih
  exact congrArg Prod.snd (hfold table.columns [])

/-- The values of the keys come behind the others. -/
theorem pushKeyed_eq (table : TableDef E) (e : E) : pushKeyed table.columns e =
    (rowValues table.nonPkColumns e, rowValues table.pkColumns e) := by
  have hfold : ∀ (cols : List (ColumnDef E)) (us ks : List BoundValue),
      cols.foldl (fun (updateVals, pkVals) col =>
        if !col.isPrimaryKey then (updateVals ++ [col.value e], pkVals)
        else (updateVals, pkVals ++ [col.value e])) (us, ks) =
      (us ++ rowValues (cols.filter (!·.isPrimaryKey)) e,
        ks ++ rowValues (cols.filter (·.isPrimaryKey)) e) := by
    intro cols
    induction cols with
    | nil => simp [rowValues]
    | cons col cols ih =>
      intro us ks
      rw [List.foldl_cons, List.filter_cons, List.filter_cons]
      cases col.isPrimaryKey with
      | true => simpa [rowValues] using ih us (ks ++ [col.value e])
      | false => simpa [rowValues] using ih (us ++ [col.value e]) ks
  exact hfold table.columns [] []

/-- So are they bound. -/
theorem bindKeyed_eq (table : TableDef E) (e : E) :
    bindKeyed table.columns e = bindCalls 0 (rowValues (DbContext.updateOrder table) e) := by
  have hfold : ∀ (cols : List (ColumnDef E)) (us ks : List BoundValue),
      cols.foldl (fun (idx, calls, pkVals) col =>
        if !col.isPrimaryKey then
          (idx + 1, calls ++ [DriverCall.bind idx (col.value e)], pkVals)
        else (idx, calls, pkVals ++ [col.value e])) (us.length, bindCalls 0 us, ks) =
      ((us ++ rowValues (cols.filter (!·.isPrimaryKey)) e).length,
        bindCalls 0 (us ++ rowValues (cols.filter (!·.isPrimaryKey)) e),
        ks ++ rowValues (cols.filter (·.isPrimaryKey)) e) := by
    intro cols
    induction cols with
    | nil => simp [rowValues]
    | cons col cols ih =>
      intro us ks
      rw [List.foldl_cons, List.filter_cons, List.filter_cons]
      cases col.isPrimaryKey with
      | true => simpa [rowValues] using ih us (ks ++ [col.value e])
      | false =>
        have hih := ih (us ++ [col.value e]) ks
        rw [bindCalls_concat, List.length_append] at hih
        simpa [rowValues] using hih
  have hcols := hfold table.columns [] []
  have horder : rowValues (DbContext.updateOrder table) e =
      rowValues table.nonPkColumns e ++ rowValues table.pkColumns e := List.map_append
  rw [horder, bindCalls_append, Nat.zero_add]
  simp only [bindKeyed]
  refine (congrArg (fun p : ℕ × List DriverCall × List BoundValue =>
    p.2.1 ++ bindCalls p.1 p.2.2) hcols).trans ?_
  simp [TableDef.nonPkColumns, TableDef.pkColumns]

end Columns

/-! ## The order of placeholders -/

section Placeholders

variable {E : Type} (conn : Connection) (table : TableDef E)

/-- `column = ?` for every column that `update_many` binds, in the order of the values. -/
def DbContext.updateEqualities : List Text :=
  DbContext.equalities conn (DbContext.updateOrder table) 0

/-- Placeholders are numbered on. -/
theorem equalities_append (cols cols' : List (ColumnDef E)) (k : ℕ) :
    DbContext.equalities conn (cols ++ cols') k =
      DbContext.equalities conn cols k ++ DbContext.equalities conn cols' (k + cols.length) := by
  simp only [DbContext.equalities, List.zipIdx_append, List.map_append]
  refine congrArg _ ?_
  rw [Nat.zero_add, List.zipIdx_eq_map_add, List.map_map]
  refine List.map_congr_left fun p _ => ?_
  simp [Nat.add_assoc]

/-- The assignments and the conditions of `update_many` are numbered on. -/
theorem updateSql_eq : DbContext.updateSql conn table =
    lit "UPDATE " ++ conn.dialect.quoteId table.name ++ lit " SET " ++
      commaList ((DbContext.updateEqualities conn table).take table.nonPkColumns.length) ++
      lit " WHERE " ++
      andList ((DbContext.updateEqualities conn table).drop table.nonPkColumns.length) := by
  have hlength : (DbContext.equalities conn table.nonPkColumns 0).length =
      table.nonPkColumns.length := by
    simp [DbContext.equalities]
  rw [DbContext.updateEqualities, DbContext.updateOrder, equalities_append, Nat.zero_add,
    List.take_left' hlength, List.drop_left' hlength]
  rfl

theorem getElem?_updateEqualities (k : ℕ) : (DbContext.updateEqualities conn table)[k]? =
    (DbContext.updateOrder table)[k]?.map fun c =>
      conn.dialect.quoteId c.name ++ lit " = " ++ placeholder k := by
  rw [DbContext.updateEqualities, DbContext.equalities, List.getElem?_map, List.getElem?_zipIdx]
  simp [Option.map_map, Function.comp_def]

theorem valueList_eq : ∀ (vs : List BoundValue) (c : Context), (valueList vs c).1 =
    commaList ((List.range' c.paramCounter vs.length).map placeholder)
  | [], _ => rfl
  | [_], _ => rfl
  | v :: w :: vs, c => by
    have ih := valueList_eq (w :: vs) ⟨c.params ++ [v], c.slots ++ [.static v], c.paramCounter + 1⟩
    have hcons : (valueList (v :: w :: vs) c).1 = placeholder c.paramCounter ++ lit ", " ++
        (valueList (w :: vs)
          ⟨c.params ++ [v], c.slots ++ [.static v], c.paramCounter + 1⟩).1 := rfl
    rw [hcons, ih]
    rfl

/-- The statement of `insert_many`. -/
theorem insertSql_eq : DbContext.insertSql conn table =
    lit "INSERT INTO " ++ conn.dialect.quoteId table.name ++
      if table.insertColumns.isEmpty then lit " DEFAULT VALUES"
      else lit " (" ++ conn.dialect.columnList (table.insertColumns.map (·.name)) ++
        lit ") VALUES (" ++ Dialect.placeholderList table.insertColumns.length ++ lit ")" := by
  rw [DbContext.insertSql]
  generalize table.insertColumns = cols
  cases cols with
  | nil =>
    have hsql : (generateInsert conn.dialect table.name [] [] none).sql =
        lit "INSERT INTO " ++ conn.dialect.quoteId table.name ++ [] ++ [] ++
          lit " DEFAULT VALUES" ++ [] := rfl
    simpa using hsql
  | cons col cols =>
    have hsql : ∀ (name : String) (names : List String) (vs : List BoundValue),
        (generateInsert conn.dialect table.name (name :: names) vs none).sql =
          lit "INSERT INTO " ++ conn.dialect.quoteId table.name ++
            (lit " (" ++ conn.dialect.columnList (name :: names) ++ lit ")") ++ [] ++
            (lit " VALUES (" ++ (valueList vs (.start 0)).1 ++ lit ")") ++ [] :=
      fun _ _ _ => rfl
    have hwords : lit ") VALUES (" = lit ")" ++ lit " VALUES (" := rfl
    rw [List.map_cons, hsql, valueList_eq, List.length_replicate, List.length_cons,
      List.length_map, hwords, Dialect.placeholderList, List.range_eq_range']
    simp [Context.start]

end Placeholders

/-! ## The calls of both paths -/

/-- A connection with or without arrays that answers every call. -/
def Connection.accepting (conn : Connection) (arrayBatchInsert : Bool) : Connection :=
  { conn with arrayBatchInsert, driver := .accepting }

/-- The calls of an operation, when nothing throws. -/
def BatchOperation.calls (conn : Connection) (op : BatchOperation) : List DriverCall :=
  (op.run conn []).2

/-- The flat parameters of the batches, one batch after another. -/
def flatParams (cs : List DriverCall) : List BoundValue :=
  cs.flatMap fun
    | .insertManyBatch _ flatParams _ _ => flatParams
    | _ => []

/-- The values bound to parameters, in order. -/
def boundValues (cs : List DriverCall) : List BoundValue :=
  cs.flatMap fun
    | .bind _ value => [value]
    | _ => []

/-- The row counts of the batches. -/
def rowCounts (cs : List DriverCall) : List ℕ :=
  cs.flatMap fun
    | .insertManyBatch _ _ _ rowCount => [rowCount]
    | _ => []

/-- The operations that have an array path. -/
def BatchOperation.HasArrays : BatchOperation → Prop
  | .upsertMany _ _ _ _ => False
  | _ => True

/-- The number of entities or keys. -/
def BatchOperation.size : BatchOperation → ℕ
  | .insertMany _ entities _ => entities.length
  | .deleteMany _ _ ids _ => ids.length
  | .updateMany _ entities _ => entities.length
  | .upsertMany _ entities _ _ => entities.length

section Calls

variable {α : Type} (conn : Connection)

theorem run_accepting (array : Bool) (p : BatchPlan) : p.run (conn.accepting array) [] =
    (.ok (), p.before ++ [.beginTransaction] ++ p.within ++ [.commit]) := by
  have hdriver : (conn.accepting array).driver = .accepting := rfl
  rw [BatchPlan.run, Session.bind_eq, hdriver, callAll_accepting]
  simp only [Connection.transaction_eq, hdriver, callAll_accepting, Driver.accepting]
  rfl

/-- What a run calls beside its plan binds nothing. -/
theorem flatMap_run_accepting {β : Type} (f : DriverCall → List β) (array : Bool)
    (p : BatchPlan) (hprepare : ∀ sql, f (.prepare sql) = []) (hbegin : f .beginTransaction = [])
    (hcommit : f .commit = []) :
    (p.run (conn.accepting array) []).2.flatMap f = p.within.flatMap f := by
  have hbefore : p.before.flatMap f = [] := by
    rw [BatchPlan.before, List.flatMap_map, List.flatMap_eq_nil_iff]
    exact fun sql _ => hprepare sql
  rw [run_accepting]
  simp [hbefore, hbegin, hcommit]

theorem boundValues_bindCalls (k : ℕ) (vs : List BoundValue) :
    boundValues (bindCalls k vs) = vs := by
  induction vs generalizing k with
  | nil => rfl
  | cons v vs ih =>
    have hcons : boundValues (bindCalls k (v :: vs)) =
        v :: boundValues (bindCalls (k + 1) vs) := rfl
    rw [hcons, ih]

theorem flatParams_arrays (sql : Text) (colCount : ℕ) (row : α → List BoundValue)
    (parts : List (List α)) :
    flatParams (BatchPlan.arrays sql colCount row parts).within = parts.flatten.flatMap row := by
  induction parts with
  | nil => rfl
  | cons part parts ih =>
    have hcons : flatParams (BatchPlan.arrays sql colCount row (part :: parts)).within =
        (part.map row).flatten ++ flatParams (BatchPlan.arrays sql colCount row parts).within :=
      rfl
    rw [hcons, ih, List.flatten_cons, List.flatMap_append, ← List.flatMap_def]

theorem boundValues_rows (sql : Text) (row : α → List BoundValue) (xs : List α) :
    boundValues (BatchPlan.rows sql row xs).within = xs.flatMap row := by
  induction xs with
  | nil => rfl
  | cons x xs ih =>
    have hcons : (BatchPlan.rows sql row (x :: xs)).within =
        .reset :: (bindCalls 0 (row x) ++ [.executeNonQuery]) ++
          (BatchPlan.rows sql row xs).within := rfl
    have hbinds := boundValues_bindCalls 0 (row x)
    rw [boundValues] at ih hbinds ⊢
    rw [hcons, List.flatMap_append, ih, List.flatMap_cons, List.flatMap_append, hbinds]
    simp

theorem boundValues_statements (sql : ℕ → Text) (value : α → BoundValue)
    (parts : List (List α)) :
    boundValues (BatchPlan.statements sql value parts).within = parts.flatten.map value := by
  induction parts with
  | nil => rfl
  | cons part parts ih =>
    have hcons : (BatchPlan.statements sql value (part :: parts)).within =
        .prepare (sql part.length) :: (bindCalls 0 (part.map value) ++ [.executeNonQuery]) ++
          (BatchPlan.statements sql value parts).within := rfl
    have hbinds := boundValues_bindCalls 0 (part.map value)
    rw [boundValues] at ih hbinds ⊢
    rw [hcons, List.flatMap_append, ih, List.flatMap_cons, List.flatMap_append, hbinds]
    simp

theorem rowCounts_arrays (sql : Text) (colCount : ℕ) (row : α → List BoundValue)
    (parts : List (List α)) :
    (rowCounts (BatchPlan.arrays sql colCount row parts).within).sum = parts.flatten.length := by
  induction parts with
  | nil => rfl
  | cons part parts ih =>
    have hcons : rowCounts (BatchPlan.arrays sql colCount row (part :: parts)).within =
        (part.map row).length :: rowCounts (BatchPlan.arrays sql colCount row parts).within :=
      rfl
    rw [hcons, List.sum_cons, ih, List.length_map, List.flatten_cons, List.length_append]

/-- A batch holds a full row for each of its elements. -/
theorem length_of_mem_arrays {sql sql' : Text} {colCount n count : ℕ} {row : α → List BoundValue}
    {parts : List (List α)} {flat : List BoundValue} (hrow : ∀ x, (row x).length = colCount)
    (h : .insertManyBatch sql' flat n count ∈
      (BatchPlan.arrays sql colCount row parts).within) : flat.length = count * n := by
  simp only [BatchPlan.within, BatchPlan.arrays, List.flatMap_map, List.mem_flatMap,
    BatchUnit.calls, List.mem_singleton, DriverCall.insertManyBatch.injEq] at h
  obtain ⟨part, -, -, rfl, rfl, rfl⟩ := h
  rw [List.length_map, ← List.flatMap_def, List.length_flatMap]
  simp [hrow]

/-- The plans of an operation with and without arrays : both or none has anything to do, and
the array path has one batch for each chunk. -/
theorem plan_accepting {op : BatchOperation} (h : op.HasArrays) :
    (∃ e, op.plan (conn.accepting true) = .error e ∧ op.plan (conn.accepting false) = .error e) ∨
    (op.size = 0 ∧ op.plan (conn.accepting true) = .ok none ∧
      op.plan (conn.accepting false) = .ok none) ∨
    ∃ p q, op.plan (conn.accepting true) = .ok (some p) ∧
      op.plan (conn.accepting false) = .ok (some q) ∧
      flatParams p.within = boundValues q.within ∧
      (rowCounts p.within).sum = op.size ∧
      ∀ sql flat colCount rowCount, .insertManyBatch sql flat colCount rowCount ∈ p.within →
        flat.length = rowCount * colCount := by
  have hflatten : ∀ (b : Bool) (chunkSize : ℕ) {β : Type} (xs : List β),
      (chunks ((conn.accepting b).chunkSizeOr chunkSize) xs).flatten = xs := fun b chunkSize _ xs =>
    flatten_chunks (chunkSizeOr_ne_zero (conn.accepting b) chunkSize) xs
  have harray : (conn.accepting true).arrayBatchInsert = true := rfl
  have hrow : (conn.accepting false).arrayBatchInsert = false := rfl
  cases op with
  | upsertMany => exact h.elim
  | insertMany table entities chunkSize =>
    by_cases hempty : entities = []
    · exact Or.inr (Or.inl (by simp [BatchOperation.plan, BatchOperation.size, hempty]))
    · refine Or.inr (Or.inr ⟨_, _, by simp [BatchOperation.plan, harray, hempty]; rfl,
        by simp [BatchOperation.plan, hrow, hempty]; rfl, ?_, ?_, ?_⟩)
      · rw [flatParams_arrays, boundValues_rows, hflatten]
      · rw [rowCounts_arrays, hflatten]
        rfl
      · exact fun _ _ _ _ => length_of_mem_arrays fun _ => List.length_map _
  | updateMany table entities chunkSize =>
    by_cases hempty : entities = []
    · exact Or.inr (Or.inl (by simp [BatchOperation.plan, BatchOperation.size, hempty]))
    by_cases hpk : table.pkColumns = []
    · exact Or.inl ⟨_, by simp [BatchOperation.plan, hempty, hpk]; rfl,
        by simp [BatchOperation.plan, hempty, hpk]⟩
    · refine Or.inr (Or.inr ⟨_, _, by simp [BatchOperation.plan, harray, hempty, hpk]; rfl,
        by simp [BatchOperation.plan, hrow, hempty, hpk]; rfl, ?_, ?_, ?_⟩)
      · rw [flatParams_arrays, boundValues_rows, hflatten]
      · rw [rowCounts_arrays, hflatten]
        rfl
      · exact fun _ _ _ _ => length_of_mem_arrays fun _ => List.length_map _
  | deleteMany table toBoundValue ids chunkSize =>
    by_cases hempty : ids = []
    · exact Or.inr (Or.inl (by simp [BatchOperation.plan, BatchOperation.size, hempty]))
    rcases hpk : table.pkColumns with _ | ⟨pk, _ | ⟨pk', rest⟩⟩
    · exact Or.inl ⟨_, by simp [BatchOperation.plan, hempty, hpk]; rfl,
        by simp [BatchOperation.plan, hempty, hpk]⟩
    · refine Or.inr (Or.inr ⟨_, _, by simp [BatchOperation.plan, harray, hempty, hpk]; rfl,
        by simp [BatchOperation.plan, hrow, hempty, hpk]; rfl, ?_, ?_, ?_⟩)
      · rw [flatParams_arrays, boundValues_statements, hflatten, hflatten, List.map_eq_flatMap]
      · rw [rowCounts_arrays, hflatten]
        rfl
      · exact fun _ _ _ _ => length_of_mem_arrays fun _ => rfl
    · exact Or.inl ⟨_, by simp [BatchOperation.plan, hempty, hpk]; rfl,
        by simp [BatchOperation.plan, hempty, hpk]⟩

end Calls

/-- Batches keep every value in its place. The `size_t` loop over chunks ends and takes the
chunks of the list, whatever their size; the four loops over columns write the same values;
the flat parameters of the batches are the values that the other path binds, each batch holds
its rows, and the batches hold all of them; and the value of a placeholder of `update_many`
is that of the column before it, ordinary columns first. -/
theorem batch_alignment (conn : Connection) :
    (∀ (α : Type) (xs : List α) (chunkSize : UInt64) (turns : ℕ), chunkSize ≠ 0 →
      xs.length < 2 ^ 63 → xs.length < turns →
      batches chunkSize turns xs = chunks chunkSize.toNat xs ∧
        (batches chunkSize turns xs).flatten = xs) ∧
    (∀ (E : Type) (table : TableDef E) (e : E),
      bindRow table.columns e = bindCalls 0 (pushRow table.columns e []) ∧
      pushRow table.columns e [] = rowValues table.insertColumns e ∧
      bindKeyed table.columns e =
        bindCalls 0 ((pushKeyed table.columns e).1 ++ (pushKeyed table.columns e).2) ∧
      (pushKeyed table.columns e).1 ++ (pushKeyed table.columns e).2 =
        rowValues (table.nonPkColumns ++ table.pkColumns) e) ∧
    (∀ op : BatchOperation, op.HasArrays →
      flatParams (op.calls (conn.accepting true)) = boundValues (op.calls (conn.accepting false)) ∧
      (∀ sql flat colCount rowCount, .insertManyBatch sql flat colCount rowCount ∈
        op.calls (conn.accepting true) → flat.length = rowCount * colCount) ∧
      ((op.run (conn.accepting true) []).1 = .ok () →
        (rowCounts (op.calls (conn.accepting true))).sum = op.size)) ∧
    (∀ (E : Type) (table : TableDef E), DbContext.insertSql conn table =
      lit "INSERT INTO " ++ conn.dialect.quoteId table.name ++
        if table.insertColumns.isEmpty then lit " DEFAULT VALUES"
        else lit " (" ++ conn.dialect.columnList (table.insertColumns.map (·.name)) ++
          lit ") VALUES (" ++ Dialect.placeholderList table.insertColumns.length ++ lit ")") ∧
    (∀ (E : Type) (table : TableDef E), DbContext.updateSql conn table =
      lit "UPDATE " ++ conn.dialect.quoteId table.name ++ lit " SET " ++
        commaList ((DbContext.updateEqualities conn table).take table.nonPkColumns.length) ++
        lit " WHERE " ++
        andList ((DbContext.updateEqualities conn table).drop table.nonPkColumns.length) ∧
      ∀ (e : E) (k : ℕ), (DbContext.updateEqualities conn table)[k]? =
          ((table.nonPkColumns ++ table.pkColumns)[k]?.map fun c =>
            conn.dialect.quoteId c.name ++ lit " = " ++ placeholder k) ∧
        (rowValues (table.nonPkColumns ++ table.pkColumns) e)[k]? =
          (table.nonPkColumns ++ table.pkColumns)[k]?.map (·.value e)) := by
  refine ⟨fun α xs chunkSize turns hpos hxs hturns => ?_, fun E table e => ?_, fun op hop => ?_,
    fun E table => insertSql_eq conn table,
    fun E table => ⟨updateSql_eq conn table, fun e k => ⟨getElem?_updateEqualities conn table k,
      List.getElem?_map ..⟩⟩⟩
  · have hbatches := batches_eq_chunks hpos hxs hturns
    refine ⟨hbatches, ?_⟩
    rw [hbatches, flatten_chunks fun h => hpos (UInt64.toNat_inj.mp h)]
  · have hpush := pushRow_eq table e []
    rw [List.nil_append] at hpush
    have hkeyed : (pushKeyed table.columns e).1 ++ (pushKeyed table.columns e).2 =
        rowValues (table.nonPkColumns ++ table.pkColumns) e := by
      rw [pushKeyed_eq]
      exact List.map_append.symm
    exact ⟨by rw [hpush, bindRow_eq], hpush, by rw [hkeyed, bindKeyed_eq]; rfl, hkeyed⟩
  · simp only [BatchOperation.calls, BatchOperation.run_eq]
    rcases plan_accepting conn hop with ⟨e, harray, hrow⟩ | ⟨hsize, harray, hrow⟩ |
      ⟨p, q, harray, hrow, hflat, hcounts, hfull⟩
    · rw [harray, hrow]
      exact ⟨rfl, fun _ _ _ _ h => absurd h List.not_mem_nil, fun h => nomatch h⟩
    · rw [harray, hrow]
      exact ⟨rfl, fun _ _ _ _ h => absurd h List.not_mem_nil, fun _ => hsize.symm⟩
    · rw [harray, hrow]
      simp only [flatParams, boundValues, rowCounts] at hflat hcounts ⊢
      rw [flatMap_run_accepting conn _ true p (fun _ => rfl) rfl rfl,
        flatMap_run_accepting conn _ false q (fun _ => rfl) rfl rfl,
        flatMap_run_accepting conn _ true p (fun _ => rfl) rfl rfl]
      refine ⟨hflat, fun sql flat colCount rowCount h => ?_, fun _ => hcounts⟩
      rw [run_accepting] at h
      have hmem : .insertManyBatch sql flat colCount rowCount ∈ p.within := by
        simpa [BatchPlan.before] using h
      exact hfull sql flat colCount rowCount hmem

end CppLinq
