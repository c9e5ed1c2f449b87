import CppLinq.BatchBuffers
import CppLinq.BatchAtomicity

/-!
# What `insert_many` submits

The rows that the server gets from a run of `insert_many`, through any of the implementations of
`insert_many_batch`. An implementation returns at once where there is no column, and the count
that it returns is not looked at : an `insert_many` by arrays submits no row of a table whose
columns are all made by the database (`insertMany_submits_iff`).
-/

namespace CppLinq

/-! ## The rows of steps -/

/-- The rows that steps submit, with the values that are bound before them. -/
def submittedRows : List BoundValue → List BatchStep → List (List BoundValue)
  | _, [] => []
  | _, .prepare _ :: steps => submittedRows [] steps
  | _, .reset :: steps => submittedRows [] steps
  | bound, .bind position value :: steps => submittedRows (bindAt position value bound) steps
  | bound, .execute :: steps => bound :: submittedRows bound steps
  | bound, .executeArrays rows :: steps => rows ++ submittedRows bound steps
  | bound, .query _ rows :: steps => rows ++ submittedRows bound steps
  | bound, .putCopyData rows :: steps => rows ++ submittedRows bound steps
  | bound, _ :: steps => submittedRows bound steps

section Steps

variable {flatParams : List BoundValue} {colCount rowCount : UInt64}

theorem runSteps_ok {fails : List BatchStep → BatchStep → Option Exn} {size : ℕ}
    (steps log : List BatchStep) (h : (runSteps fails size log steps).1 = .ok ()) :
    (runSteps fails size log steps).2 = log ++ steps := by
  induction steps generalizing log with
  | nil => exact (List.append_nil log).symm
  | cons step steps ih =>
    obtain ⟨_, -, -, hrun⟩ | ⟨_, -, hrun⟩ | ⟨-, hrun⟩ := runSteps_cons fails size log step steps
    · rw [hrun] at h
      cases h
    · rw [hrun] at h
      cases h
    · rw [hrun] at h ⊢
      rw [ih _ h, List.append_assoc]
      rfl

theorem submittedRows_reads (is : List ℕ) (bound : List BoundValue) (steps : List BatchStep) :
    submittedRows bound (is.map .read ++ steps) = submittedRows bound steps := by
  induction is with
  | nil => rfl
  | cons i is ih => exact ih

theorem submittedRows_readRows (rows : List UInt64) (row : UInt64 → UInt64)
    (bound : List BoundValue) (steps : List BatchStep) :
    submittedRows bound ((rows.flatMap fun r => readRow colCount (row r)) ++ steps) =
      submittedRows bound steps := by
  induction rows with
  | nil => rfl
  | cons r rows ih =>
    rw [List.flatMap_cons, List.append_assoc, readRow, submittedRows_reads]
    exact ih

/-- The values of a row are bound one after another. -/
theorem submittedRows_bind (is : List ℕ) {k : ℕ} {bound : List BoundValue} (hk : bound.length = k)
    (steps : List BatchStep) :
    submittedRows bound (((is.zipIdx k).flatMap fun (i, c) =>
        [.read i, .bind c (flatParams.getD i .null)]) ++ steps) =
      submittedRows (bound ++ is.map fun i => flatParams.getD i .null) steps := by
  induction is generalizing k bound with
  | nil => simp
  | cons i is ih =>
    have hbind : bindAt k (flatParams.getD i .null) bound =
        bound ++ [flatParams.getD i .null] := by
      simp [bindAt, hk]
    have hstep : submittedRows bound ((((i :: is).zipIdx k).flatMap fun (i, c) =>
        [BatchStep.read i, .bind c (flatParams.getD i .null)]) ++ steps) =
        submittedRows (bindAt k (flatParams.getD i .null) bound)
          (((is.zipIdx (k + 1)).flatMap fun (i, c) =>
            [.read i, .bind c (flatParams.getD i .null)]) ++ steps) := rfl
    rw [hstep, hbind, ih (by simp [hk]), List.map_cons, List.append_assoc]
    rfl

theorem submittedRows_bindRow (row : UInt64) (steps : List BatchStep) :
    submittedRows [] (bindRowSteps flatParams colCount row ++ steps) =
      submittedRows (rowAt flatParams colCount row) steps := by
  have hbind := @submittedRows_bind flatParams (cellIndices colCount row) 0 [] rfl steps
  rwa [List.nil_append] at hbind

/-- The prepared statement submits the rows one by one. -/
theorem submittedRows_loop (resetFirst : Bool) (sql : List Char) :
    submittedRows [] (loopSteps flatParams colCount resetFirst sql rowCount) =
      (upTo rowCount).map (rowAt flatParams colCount) := by
  have hrest : ∀ (rows : List UInt64), (∀ row ∈ rows, row ≠ 0) → ∀ bound,
      submittedRows bound (rows.flatMap fun row =>
        (if resetFirst ∨ row ≠ 0 then [BatchStep.reset] else []) ++
          bindRowSteps flatParams colCount row ++ [.execute]) =
        rows.map (rowAt flatParams colCount) := by
    intro rows hrows
    induction rows with
    | nil => exact fun _ => rfl
    | cons row rows ih =>
      intro bound
      rw [List.flatMap_cons, if_pos (.inr (hrows row List.mem_cons_self)), List.append_assoc,
        List.append_assoc, List.singleton_append, submittedRows, submittedRows_bindRow,
        List.singleton_append, submittedRows, ih fun r hr => hrows r (List.mem_cons_of_mem _ hr),
        List.map_cons]
  rw [loopSteps, submittedRows, upTo]
  cases hcount : rowCount.toNat with
  | zero => rfl
  | succ n =>
    have hne : ∀ row ∈ (List.range n).map (UInt64.ofNat ∘ Nat.succ), row ≠ 0 := by
      intro row hrow
      obtain ⟨k, hk, rfl⟩ := List.mem_map.mp hrow
      rw [List.mem_range] at hk
      have hlt := rowCount.toNat_lt
      have hnat : (UInt64.ofNat (k + 1)).toNat = k + 1 :=
        UInt64.toNat_ofNat_of_lt' (by simp only [UInt64.size]; omega)
      rw [Function.comp_apply, Ne, ← UInt64.toNat_inj, hnat]
      exact Nat.succ_ne_zero k
    rw [List.range_succ_eq_map, List.map_cons, List.map_map, List.flatMap_cons, List.map_cons]
    have hfirst : ∀ steps, submittedRows [] ((if resetFirst = true ∨ (UInt64.ofNat 0) ≠ 0 then
        [BatchStep.reset] else []) ++ steps) = submittedRows [] steps := by
      intro steps
      split
      · rfl
      · rfl
    rw [List.append_assoc, List.append_assoc, hfirst, submittedRows_bindRow,
      List.singleton_append, submittedRows, hrest _ hne]

theorem submittedRows_copy (doubleText : Double → List Char) (rows : List UInt64)
    (buffered : List (List BoundValue)) (bound : List BoundValue) :
    submittedRows bound (copySteps flatParams colCount doubleText buffered rows) =
      buffered ++ rows.map (rowAt flatParams colCount) := by
  induction rows generalizing buffered with
  | nil =>
    rw [copySteps]
    split
    · rename_i hempty
      rw [List.isEmpty_iff.mp hempty]
      rfl
    · rfl
  | cons row rows ih =>
    rw [copySteps, readRow, submittedRows_reads, List.map_cons]
    split
    · rw [submittedRows, ih, List.nil_append, List.append_assoc]
      rfl
    · rw [ih, List.append_assoc]
      rfl

/-- The array of ODBC submits the rows of the buffer. -/
theorem submittedRows_odbc (sql : List Char) :
    submittedRows [] (odbcSteps flatParams colCount sql rowCount) =
      (upTo rowCount).map (rowAt flatParams colCount) := by
  have hcolumns : ∀ (cs : List UInt64) (steps : List BatchStep),
      submittedRows [] ((cs.flatMap fun c => (upTo rowCount).map fun row =>
        BatchStep.read (cellIndex colCount row c)) ++ steps) = submittedRows [] steps := by
    intro cs steps
    induction cs with
    | nil => rfl
    | cons c cs ih =>
      have hread : ((upTo rowCount).map fun row => BatchStep.read (cellIndex colCount row c)) =
          ((upTo rowCount).map fun row => cellIndex colCount row c).map .read := by
        rw [List.map_map]
        rfl
      rw [List.flatMap_cons, List.append_assoc, hread, submittedRows_reads, ih]
  have hbind : ∀ (cs : List ℕ) (steps : List BatchStep),
      submittedRows [] (cs.map .bindColumn ++ steps) = submittedRows [] steps := by
    intro cs steps
    induction cs with
    | nil => rfl
    | cons c cs ih => exact ih
  rw [odbcSteps]
  simp only [List.append_assoc]
  have hstart : ∀ steps, submittedRows [] ([.allocate, .prepare sql, .setRowCount rowCount] ++
      steps) = submittedRows [] steps := fun _ => rfl
  have hrows : ∀ steps, submittedRows [] ((upTo rowCount).flatMap (readRow colCount) ++ steps) =
      submittedRows [] steps := submittedRows_readRows (upTo rowCount) id []
  rw [hstart, hcolumns, hrows, hbind, submittedRows, submittedRows, List.append_nil]

/-! ## The rows of a matrix -/

theorem length_upTo (count : UInt64) : (upTo count).length = count.toNat := by
  rw [upTo, List.length_map, List.length_range]

/-- A chunk of the rows below a count. -/
theorem take_drop_upTo {offset batch : UInt64}
    (h : offset.toNat + batch.toNat ≤ rowCount.toNat) :
    ((upTo rowCount).drop offset.toNat).take batch.toNat =
      (upTo batch).map fun r => offset + r := by
  refine List.ext_getElem ?_ fun i h₁ h₂ => ?_
  · rw [List.length_take, List.length_drop, length_upTo, List.length_map, length_upTo]
    omega
  · simp only [upTo, List.getElem_take, List.getElem_drop, List.getElem_map, List.getElem_range,
      UInt64.ofNat_add, UInt64.ofNat_toNat]

/-- The statements for many rows submit them in order. -/
theorem submittedRows_mysql (start : List Char) (hrow : rowCount.toNat < 2 ^ 63)
    (bound : List BoundValue) :
    submittedRows bound (mysqlSteps flatParams colCount start rowCount) =
      (upTo rowCount).map (rowAt flatParams colCount) := by
  have hturns : ∀ turns : List (UInt64 × UInt64),
      submittedRows bound (turns.flatMap fun turn =>
        ((upTo turn.2).flatMap fun r => readRow colCount (turn.1 + r)) ++
          [.query start ((upTo turn.2).map fun r => rowAt flatParams colCount (turn.1 + r))]) =
        (turns.map fun turn => (upTo turn.2).map fun r => turn.1 + r).flatten.map
          (rowAt flatParams colCount) := by
    intro turns
    induction turns with
    | nil => rfl
    | cons turn turns ih =>
      rw [List.flatMap_cons, List.append_assoc, submittedRows_readRows, List.singleton_append,
        submittedRows, ih, List.map_cons, List.flatten_cons, List.map_append, List.map_map]
      rfl
  have hbatch : 0 < (UInt64.ofNat batchChunk).toNat := by decide
  have hchunks := map_chunkLoop hbatch (upTo rowCount)
    (by rwa [length_upTo]) (rowCount.toNat + 1) 0
    (by rw [length_upTo, UInt64.toNat_zero]; omega) (.inl rfl)
  have hparts : ∀ turn ∈ chunkLoop (.ofNat batchChunk) rowCount (rowCount.toNat + 1) 0,
      ((upTo rowCount).drop turn.1.toNat).take turn.2.toNat =
        (upTo turn.2).map fun r => turn.1 + r :=
    fun turn hturn => take_drop_upTo (add_le_of_mem_chunkLoop hturn)
  have hcount : UInt64.ofNat (upTo rowCount).length = rowCount := by
    rw [length_upTo, UInt64.ofNat_toNat]
  rw [hcount, List.map_congr_left hparts] at hchunks
  rw [mysqlSteps]
  refine (hturns _).trans ?_
  rw [hchunks, UInt64.toNat_zero, List.drop_zero, flatten_chunks (by decide)]

/-- Every implementation submits the rows of the matrix, in order. -/
theorem submittedRows_steps (driver : BatchDriver) (doubleText : Double → List Char)
    (takesCopy : Bool) (sql : List Char) (hrow : rowCount.toNat < 2 ^ 63) :
    submittedRows [] (driver.steps doubleText takesCopy sql flatParams colCount rowCount) =
      (upTo rowCount).map (rowAt flatParams colCount) := by
  cases driver with
  | connection => exact submittedRows_loop false sql
  | odbc => exact submittedRows_odbc sql
  | mysql =>
    rw [BatchDriver.steps]
    split
    · exact submittedRows_mysql _ hrow []
    · exact submittedRows_loop true sql
  | postgres =>
    rw [BatchDriver.steps]
    split
    · have hcopy : ∀ target steps,
          submittedRows [] (.copyIn target :: steps) = submittedRows [] steps := fun _ _ => rfl
      rw [hcopy]
      split
      · rw [submittedRows_copy, List.nil_append]
      · exact submittedRows_loop true sql
    · exact submittedRows_loop true sql

/-- The cells of a row are next to each other. -/
theorem rowAt_eq {i : ℕ} (hi : i < rowCount.toNat)
    (hfits : rowCount.toNat * colCount.toNat ≤ flatParams.length)
    (hsize : flatParams.length < 2 ^ 64) :
    rowAt flatParams colCount (.ofNat i) =
      (flatParams.drop (i * colCount.toNat)).take colCount.toNat := by
  have hend : i * colCount.toNat + colCount.toNat ≤ rowCount.toNat * colCount.toNat := by
    rw [← Nat.succ_mul]
    exact Nat.mul_le_mul_right _ hi
  refine List.ext_getElem ?_ fun c h₁ h₂ => ?_
  · rw [rowAt, cellIndices, List.length_map, List.length_map, length_upTo, List.length_take,
      List.length_drop]
    omega
  · have hc : c < colCount.toNat := by
      rw [List.length_take] at h₂
      omega
    have hcell : cellIndex colCount (.ofNat i) (.ofNat c) = i * colCount.toNat + c := by
      have hinat : (UInt64.ofNat i).toNat = i :=
        UInt64.toNat_ofNat_of_lt' (Nat.lt_trans hi rowCount.toNat_lt)
      have hcnat : (UInt64.ofNat c).toNat = c :=
        UInt64.toNat_ofNat_of_lt' (Nat.lt_trans hc colCount.toNat_lt)
      rw [cellIndex, UInt64.toNat_add, UInt64.toNat_mul, Nat.mod_add_mod, hinat, hcnat]
      exact Nat.mod_eq_of_lt (by omega)
    simp only [rowAt, cellIndices, upTo, List.getElem_map, List.getElem_range, hcell,
      List.getElem_take, List.getElem_drop]
    rw [List.getD_eq_getElem?_getD, List.getElem?_eq_getElem (by omega), Option.getD_some]

/-- The rows of the buffer are the rows of the batch. -/
theorem map_rowAt (hfits : rowCount.toNat * colCount.toNat ≤ flatParams.length)
    (hsize : flatParams.length < 2 ^ 64) :
    (upTo rowCount).map (rowAt flatParams colCount) =
      batchRows flatParams colCount.toNat rowCount.toNat := by
  rw [upTo, List.map_map, batchRows, parts]
  exact List.map_congr_left fun i hi => rowAt_eq (List.mem_range.mp hi) hfits hsize

end Steps

/-- What a batch that returns normally submits. -/
theorem submittedRows_insertManyBatch (driver : BatchDriver) (doubleText : Double → List Char)
    (server : BatchServer) (sql : List Char) {flatParams : List BoundValue}
    {colCount rowCount : UInt64} (hrow : rowCount.toNat < 2 ^ 63) (hcol : colCount ≠ 0)
    (hfits : rowCount.toNat * colCount.toNat ≤ flatParams.length)
    (hsize : flatParams.length < 2 ^ 64)
    (h : (driver.insertManyBatch doubleText server sql flatParams colCount rowCount).1 = .ok ()) :
    submittedRows []
        (driver.insertManyBatch doubleText server sql flatParams colCount rowCount).2 =
      batchRows flatParams colCount.toNat rowCount.toNat := by
  rw [← map_rowAt hfits hsize]
  rw [BatchDriver.insertManyBatch] at h ⊢
  by_cases hzero : rowCount = 0 ∨ colCount = 0
  · rw [if_pos hzero, hzero.resolve_right hcol]
    rfl
  · rw [if_neg hzero] at h ⊢
    split at h
    · cases h
    · rename_i hcheck
      rw [if_neg hcheck]
      split at h
      · cases h
      · rw [runSteps_ok _ _ h, List.nil_append]
        exact submittedRows_steps driver doubleText _ sql hrow

/-! ## The rows of calls -/

/-- What a batch throws. Nothing goes on after a read past the end either. -/
def batchThrows : Except BatchHalt Unit → Option Exn
  | .ok () => none
  | .error (.threw e) => some e
  | .error (.outOfBounds _) => some (.invalidArgument "read past the end")

section Calls

variable (impl : BatchDriver) (doubleText : Double → List Char) (sqlText : Text → List Char)
  (server : List DriverCall → BatchServer)

/-- The steps of a call of `insert_many_batch` after others. -/
def batchRun (log : List DriverCall) (sql : Text) (flatParams : List BoundValue)
    (colCount rowCount : ℕ) : Except BatchHalt Unit × List BatchStep :=
  impl.insertManyBatch doubleText (server log) (sqlText sql) flatParams (.ofNat colCount)
    (.ofNat rowCount)

/-- A driver whose batches are run by an implementation. -/
def Driver.through (driver : Driver) : Driver
  | log, .insertManyBatch sql flatParams colCount rowCount =>
    batchThrows (batchRun impl doubleText sqlText server log sql flatParams colCount rowCount).1
  | log, c => driver log c

/-- The rows that calls submit after others, with the values that are bound before them. -/
def submitted : List DriverCall → List BoundValue → List DriverCall → List (List BoundValue)
  | _, _, [] => []
  | log, _, .prepare sql :: cs => submitted (log ++ [.prepare sql]) [] cs
  | log, _, .reset :: cs => submitted (log ++ [.reset]) [] cs
  | log, bound, .bind position value :: cs =>
    submitted (log ++ [.bind position value]) (bindAt position value bound) cs
  | log, bound, .executeNonQuery :: cs =>
    bound :: submitted (log ++ [.executeNonQuery]) bound cs
  | log, bound, .insertManyBatch sql flatParams colCount rowCount :: cs =>
    submittedRows []
        (batchRun impl doubleText sqlText server log sql flatParams colCount rowCount).2 ++
      submitted (log ++ [.insertManyBatch sql flatParams colCount rowCount]) bound cs
  | log, bound, c :: cs => submitted (log ++ [c]) bound cs

variable {impl doubleText sqlText server}

/-- Values are bound to the next positions. -/
theorem submitted_bindCalls (vs : List BoundValue) {k : ℕ} {bound : List BoundValue}
    (hk : bound.length = k) (log cs : List DriverCall) :
    submitted impl doubleText sqlText server log bound (bindCalls k vs ++ cs) =
      submitted impl doubleText sqlText server (log ++ bindCalls k vs) (bound ++ vs) cs := by
  induction vs generalizing log k bound with
  | nil => rw [bindCalls, List.nil_append, List.append_nil, List.append_nil]
  | cons v vs ih =>
    have hbind : bindAt k v bound = bound ++ [v] := by simp [bindAt, hk]
    rw [bindCalls, List.cons_append, submitted, hbind, ih (by simp [hk])]
    simp

/-- The statement that is prepared submits the rows that are bound. -/
theorem submitted_rows {α : Type} (row : α → List BoundValue) (xs : List α)
    (log : List DriverCall) (bound : List BoundValue) :
    submitted impl doubleText sqlText server log bound
        ((xs.map fun x => BatchUnit.again (row x)).flatMap BatchUnit.calls ++ [.commit]) =
      xs.map row := by
  induction xs generalizing log bound with
  | nil => rfl
  | cons x xs ih =>
    have hbind := @submitted_bindCalls impl doubleText sqlText server (row x) 0 [] rfl
    rw [List.map_cons, List.flatMap_cons, BatchUnit.calls, List.append_assoc, List.cons_append,
      List.append_assoc, submitted, hbind, List.singleton_append, submitted, List.nil_append, ih,
      List.map_cons]

/-- A chunk is submitted as it is. -/
theorem submittedRows_batchRun {α : Type} {log : List DriverCall} {sql : Text} {colCount : ℕ}
    {row : α → List BoundValue} (hrow : ∀ x, (row x).length = colCount) (hcol : colCount ≠ 0)
    {part : List α} (hsize : part.length * colCount < 2 ^ 63)
    (h : (batchRun impl doubleText sqlText server log sql (part.map row).flatten colCount
      (part.map row).length).1 = .ok ()) :
    submittedRows [] (batchRun impl doubleText sqlText server log sql (part.map row).flatten
      colCount (part.map row).length).2 = part.map row := by
  have hle : part.length ≤ part.length * colCount :=
    Nat.le_mul_of_pos_right _ (Nat.pos_of_ne_zero hcol)
  have hlength : (part.map row).flatten.length = part.length * colCount := by
    rw [← List.flatMap_def, List.length_flatMap]
    simp [hrow]
  rcases Nat.eq_zero_or_pos part.length with hempty | hpos
  · rw [List.length_eq_zero_iff.mp hempty]
    rfl
  · have hcolle : colCount ≤ part.length * colCount := Nat.le_mul_of_pos_left _ hpos
    have hcolnat : (UInt64.ofNat colCount).toNat = colCount :=
      UInt64.toNat_ofNat_of_lt' (by simp only [UInt64.size]; omega)
    have hrownat : (UInt64.ofNat (part.map row).length).toNat = part.length := by
      rw [List.length_map]
      exact UInt64.toNat_ofNat_of_lt' (by simp only [UInt64.size]; omega)
    have hcol' : UInt64.ofNat colCount ≠ 0 := by
      rw [Ne, ← UInt64.toNat_inj, hcolnat]
      exact hcol
    rw [batchRun] at h ⊢
    rw [submittedRows_insertManyBatch impl doubleText (server log) (sqlText sql)
      (by rw [hrownat]; omega) hcol' (by rw [hrownat, hcolnat, hlength]) (by rw [hlength]; omega) h,
      hcolnat, hrownat, batchRows, ← List.flatMap_def, parts_flatMap row hrow]

/-- Arrays submit the rows of their chunks, where there is a column. -/
theorem submitted_arrays {α : Type} (driver : Driver) (sql : Text) {colCount : ℕ}
    {row : α → List BoundValue} (hrow : ∀ x, (row x).length = colCount) (hcol : colCount ≠ 0)
    (parts : List (List α)) (hsize : ∀ part ∈ parts, part.length * colCount < 2 ^ 63)
    {log : List DriverCall} (bound : List BoundValue)
    (haccepts : (driver.through impl doubleText sqlText server).Accepts log
      ((parts.map fun part => BatchUnit.array sql colCount (part.map row)).flatMap
        BatchUnit.calls ++ [.commit])) :
    submitted impl doubleText sqlText server log bound
        ((parts.map fun part => BatchUnit.array sql colCount (part.map row)).flatMap
          BatchUnit.calls ++ [.commit]) =
      parts.flatten.map row := by
  induction parts generalizing log bound with
  | nil => rfl
  | cons part parts ih =>
    obtain ⟨haccept, haccepts⟩ := haccepts
    have hok : (batchRun impl doubleText sqlText server log sql (part.map row).flatten colCount
        (part.map row).length).1 = .ok () := by
      have haccept : batchThrows (batchRun impl doubleText sqlText server log sql
        (part.map row).flatten colCount (part.map row).length).1 = none := haccept
      revert haccept
      rcases (batchRun impl doubleText sqlText server log sql (part.map row).flatten colCount
        (part.map row).length).1 with (e | i) | _
      · exact fun h => nomatch h
      · exact fun h => nomatch h
      · exact fun _ => rfl
    have hrest := ih (fun p hp => hsize p (List.mem_cons_of_mem _ hp)) bound haccepts
    have hbatch : submittedRows [] (batchRun impl doubleText sqlText server log sql
        (part.map row).flatten colCount (part.map row).length).2 = part.map row :=
      submittedRows_batchRun hrow hcol (hsize part List.mem_cons_self) hok
    rw [List.map_cons, List.flatMap_cons, BatchUnit.calls, List.append_assoc,
      List.singleton_append, submitted, hbatch, hrest, List.flatten_cons, List.map_append]

/-- Without a column, arrays are accepted and submit nothing. -/
theorem submitted_arrays_zero {α : Type} (sql : Text) (row : α → List BoundValue)
    (parts : List (List α)) (log : List DriverCall) (bound : List BoundValue) :
    (Driver.accepting.through impl doubleText sqlText server).Accepts log
        ((parts.map fun part => BatchUnit.array sql 0 (part.map row)).flatMap BatchUnit.calls ++
          [.commit]) ∧
      submitted impl doubleText sqlText server log bound
        ((parts.map fun part => BatchUnit.array sql 0 (part.map row)).flatMap BatchUnit.calls ++
          [.commit]) = [] := by
  induction parts generalizing log with
  | nil => exact ⟨⟨rfl, trivial⟩, rfl⟩
  | cons part parts ih =>
    have hrun : ∀ flatParams rowCount, batchRun impl doubleText sqlText server log sql flatParams 0
        rowCount = (.ok (), []) := by
      intro flatParams rowCount
      rw [batchRun, BatchDriver.insertManyBatch, if_pos (.inr rfl)]
    obtain ⟨haccepts, hrest⟩ := ih (log ++ [.insertManyBatch sql (part.map row).flatten 0
      (part.map row).length])
    rw [List.map_cons, List.flatMap_cons, BatchUnit.calls, List.append_assoc, List.singleton_append]
    refine ⟨⟨?_, haccepts⟩, ?_⟩
    · rw [Driver.through, hrun]
      rfl
    · rw [submitted, hrun, hrest]
      rfl

end Calls

/-! ## `insert_many` -/

/-- Calls return exactly if the driver accepts them all. -/
theorem callAll_eq_ok_iff (driver : Driver) (cs log : List DriverCall) (log' : List DriverCall) :
    callAll driver cs log = (.ok (), log') ↔ driver.Accepts log cs ∧ log' = log ++ cs := by
  rcases callAll_cases driver cs log with ⟨haccepts, hrun⟩ | ⟨e, pre, c, hpre, hacc, hc, hrun⟩
  · rw [hrun]
    constructor
    · intro h
      injection h with _ hlog
      exact ⟨haccepts, hlog.symm⟩
    · rintro ⟨-, rfl⟩
      rfl
  · rw [hrun]
    constructor
    · intro h
      injection h with hr
      cases hr
    · rintro ⟨haccepts, -⟩
      obtain ⟨ds, rfl⟩ := hpre
      rw [accepts_append, accepts_append] at haccepts
      have hnone := haccepts.1.2.1
      rw [hc] at hnone
      cases hnone

/-- A transaction returns normally where all of its calls are accepted. -/
theorem transaction_eq_ok_iff (conn : Connection) (cs log log' : List DriverCall) :
    conn.transaction (callAll conn.driver cs) log = (.ok (), log') ↔
      conn.driver.Accepts log (.beginTransaction :: (cs ++ [.commit])) ∧
        log' = log ++ .beginTransaction :: (cs ++ [.commit]) := by
  have hlog : log ++ .beginTransaction :: (cs ++ [.commit]) =
      log ++ [.beginTransaction] ++ cs ++ [.commit] := by simp
  have haccepts : conn.driver.Accepts log (.beginTransaction :: (cs ++ [.commit])) ↔
      conn.driver log .beginTransaction = none ∧
        conn.driver.Accepts (log ++ [.beginTransaction]) cs ∧
        conn.driver (log ++ [.beginTransaction] ++ cs) .commit = none := by
    rw [Driver.Accepts, accepts_append, accepts_singleton]
  rw [Connection.transaction_eq, haccepts, hlog]
  cases hbegin : conn.driver log .beginTransaction with
  | some e =>
    constructor
    · intro h
      cases h
    · rintro ⟨⟨h, -⟩, -⟩
      cases h
  | none =>
    have hbody := callAll_eq_ok_iff conn.driver cs (log ++ [.beginTransaction])
    dsimp only
    cases hrun : callAll conn.driver cs (log ++ [.beginTransaction]) with
    | mk r log'' =>
      cases r with
      | error e =>
        constructor
        · intro h
          cases h
        · rintro ⟨⟨-, hcs, -⟩, -⟩
          have hok := (hbody _).mpr ⟨hcs, rfl⟩
          rw [hrun] at hok
          cases hok
      | ok u =>
        obtain ⟨hcs, rfl⟩ := (hbody _).mp hrun
        dsimp only
        cases hcommit : conn.driver (log ++ [.beginTransaction] ++ cs) .commit with
        | some e =>
          constructor
          · intro h
            cases h
          · rintro ⟨⟨-, -, h⟩, -⟩
            cases h
        | none =>
          constructor
          · intro h
            injection h with _ h
            exact ⟨⟨rfl, hcs, rfl⟩, h.symm⟩
          · rintro ⟨-, rfl⟩
            rfl

/-- A plan returns normally where all of its calls are accepted. -/
theorem BatchPlan.run_eq_ok_iff (conn : Connection) (p : BatchPlan) (log : List DriverCall) :
    p.run conn [] = (.ok (), log) ↔
      conn.driver.Accepts [] (p.before ++ .beginTransaction :: (p.within ++ [.commit])) ∧
        log = p.before ++ .beginTransaction :: (p.within ++ [.commit]) := by
  have hbefore := callAll_eq_ok_iff conn.driver p.before []
  rw [BatchPlan.run, Session.bind_eq, accepts_append]
  cases hrun : callAll conn.driver p.before [] with
  | mk r log' =>
    cases r with
    | error e =>
      constructor
      · intro h
        cases h
      · rintro ⟨⟨hcs, -⟩, -⟩
        have hok := (hbefore _).mpr ⟨hcs, rfl⟩
        rw [hrun] at hok
        cases hok
    | ok u =>
      obtain ⟨hcs, rfl⟩ := (hbefore _).mp hrun
      dsimp only
      rw [transaction_eq_ok_iff]
      simp only [List.nil_append, hcs, true_and]

section InsertMany

variable {E : Type} (conn : Connection) (impl : BatchDriver) (doubleText : Double → List Char)
  (sqlText : Text → List Char) (table : TableDef E) (entities : List E) (chunkSize : ℕ)

/-- A connection with another driver, whose batches are run by an implementation. -/
def Connection.through (driver : Driver) (server : List DriverCall → BatchServer) : Connection :=
  { conn with driver := driver.through impl doubleText sqlText server }

/-- In every run of `insert_many` that returns normally, the rows of the entities are submitted,
in their order. -/
def InsertManySubmits : Prop :=
  ∀ (driver : Driver) (server : List DriverCall → BatchServer) (log : List DriverCall),
    DbContext.insertMany (conn.through impl doubleText sqlText driver server) table entities
      chunkSize [] = (.ok (), log) →
    submitted impl doubleText sqlText server [] [] log =
      entities.map (rowValues table.insertColumns)

/-- How `insert_many` goes : by arrays, or row by row. -/
theorem insertMany_through (driver : Driver) (server : List DriverCall → BatchServer) :
    DbContext.insertMany (conn.through impl doubleText sqlText driver server) table entities
        chunkSize =
      if entities.isEmpty then return
      else if conn.arrayBatchInsert then
        (BatchPlan.arrays (DbContext.insertSql conn table) table.insertColumns.length
          (rowValues table.insertColumns) (chunks (conn.chunkSizeOr chunkSize) entities)).run
            (conn.through impl doubleText sqlText driver server)
      else
        (BatchPlan.rows (DbContext.insertSql conn table) (rowValues table.insertColumns)
          entities).run (conn.through impl doubleText sqlText driver server) := by
  have hrun := BatchOperation.run_eq (conn.through impl doubleText sqlText driver server)
    (.insertMany table entities chunkSize)
  have harray : (conn.through impl doubleText sqlText driver server).arrayBatchInsert =
      conn.arrayBatchInsert := rfl
  rw [BatchOperation.run, BatchOperation.plan, harray] at hrun
  rw [hrun]
  by_cases hempty : entities.isEmpty = true
  · rw [if_pos hempty, if_pos hempty]
  · rw [if_neg hempty, if_neg hempty]
    by_cases hconn : conn.arrayBatchInsert = true
    · rw [if_pos hconn, if_pos hconn]
      rfl
    · rw [if_neg hconn, if_neg hconn]
      rfl

variable {conn impl doubleText sqlText table entities chunkSize}

theorem insertManySubmits_of (hsize : ∀ part ∈ chunks (conn.chunkSizeOr chunkSize) entities,
      part.length * table.insertColumns.length < 2 ^ 63)
    (h : ¬ (conn.arrayBatchInsert = true ∧ entities ≠ [] ∧ table.insertColumns = [])) :
    InsertManySubmits conn impl doubleText sqlText table entities chunkSize := by
  intro driver server log hrun
  rw [insertMany_through] at hrun
  split at hrun
  · rename_i hempty
    injection hrun with _ hlog
    rw [← hlog, List.isEmpty_iff.mp hempty]
    rfl
  · rename_i hempty
    have hne : entities ≠ [] := mt List.isEmpty_iff.mpr hempty
    split at hrun
    · rename_i harray
      have hcol : table.insertColumns.length ≠ 0 :=
        fun hcol => h ⟨harray, hne, List.length_eq_zero_iff.mp hcol⟩
      obtain ⟨haccepts, rfl⟩ := (BatchPlan.run_eq_ok_iff _ _ _).mp hrun
      have hrow : ∀ e, (rowValues table.insertColumns e).length = table.insertColumns.length :=
        fun e => length_rowValues _ e
      have hsubmitted := submitted_arrays driver (DbContext.insertSql conn table) hrow hcol _ hsize
        [] haccepts.2
      rw [flatten_chunks (chunkSizeOr_ne_zero conn chunkSize)] at hsubmitted
      exact hsubmitted
    · obtain ⟨-, rfl⟩ := (BatchPlan.run_eq_ok_iff _ _ _).mp hrun
      exact submitted_rows _ entities _ []

/-- By arrays, entities without a column to insert are not submitted. -/
theorem not_insertManySubmits (harray : conn.arrayBatchInsert = true) (hne : entities ≠ [])
    (hcol : table.insertColumns = []) :
    ¬ InsertManySubmits conn impl doubleText sqlText table entities chunkSize := by
  intro h
  let server : List DriverCall → BatchServer := fun _ => ⟨true, true, fun _ _ => none⟩
  obtain ⟨haccepts, hsubmitted⟩ := @submitted_arrays_zero impl doubleText sqlText server E
    (DbContext.insertSql conn table) (rowValues table.insertColumns)
    (chunks (conn.chunkSizeOr chunkSize) entities) [.beginTransaction] []
  have hrun := (BatchPlan.run_eq_ok_iff (conn.through impl doubleText sqlText .accepting server)
    (.arrays (DbContext.insertSql conn table) 0 (rowValues table.insertColumns)
      (chunks (conn.chunkSizeOr chunkSize) entities)) _).mpr ⟨⟨rfl, haccepts⟩, rfl⟩
  have hlength : table.insertColumns.length = 0 := by rw [hcol, List.length_nil]
  have hempty : entities.isEmpty = false := by simpa using hne
  have hrows := h .accepting server _ (by
    rw [insertMany_through, hempty, if_neg Bool.false_ne_true, if_pos harray, hlength]
    exact hrun)
  have hnil : ([] : List (List BoundValue)) = entities.map (rowValues table.insertColumns) :=
    hsubmitted.symm.trans hrows
  exact hne (List.map_eq_nil_iff.mp hnil.symm)

/-- `insert_many` submits every entity, through every implementation, except by arrays where
there is no column to insert. The hypothesis is that the vector of a chunk can be made. -/
theorem insertMany_submits_iff (hsize : ∀ part ∈ chunks (conn.chunkSizeOr chunkSize) entities,
      part.length * table.insertColumns.length < 2 ^ 63) :
    InsertManySubmits conn impl doubleText sqlText table entities chunkSize ↔
      ¬ (conn.arrayBatchInsert = true ∧ entities ≠ [] ∧ table.insertColumns = []) :=
  ⟨fun h hdrops => not_insertManySubmits hdrops.1 hdrops.2.1 hdrops.2.2 h,
    insertManySubmits_of hsize⟩

end InsertMany

/-- The loans of a library : who has a book, and until when. -/
def loansTable : TableDef (String × Int64 × Option Int64) where
  name := "loans"
  columns := [
    { name := "id", isPrimaryKey := true, isAutoIncrement := true, value := fun _ => .null },
    { name := "reader", value := fun e => .string e.1 },
    { name := "book", value := fun e => .int64 e.2.1 },
    { name := "due", value := fun e => e.2.2.elim .null .int64 }]

/-- Five loans in chunks of two, which PostgreSQL gets as arrays. -/
theorem insertMany_submits_loans :
    InsertManySubmits postgresConnection .postgres (fun _ => []) (fun _ => []) loansTable
      [("ann", 7, some 20), ("bob", 3, none), ("ann", 4, none), ("eve", 9, some 21),
        ("dan", 1, some 2)] 2 :=
  (insertMany_submits_iff (by decide)).mpr fun hdrops =>
    absurd (congrArg List.length hdrops.2.2) (by decide)

/-- Two entities with a generated key only are not submitted to PostgreSQL. -/
theorem not_insertManySubmits_keys :
    ¬ InsertManySubmits postgresConnection .postgres (fun _ => []) (fun _ => []) keysTable
      [.null, .null] 0 :=
  not_insertManySubmits rfl (List.cons_ne_nil _ _) rfl

end CppLinq
