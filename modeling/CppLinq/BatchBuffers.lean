import CppLinq.BatchPaths

/-!
# Short parameter buffers

The four implementations of `insert_many_batch` as the steps they take, with the reads of
`flat_params` among them. The indices are computed in `size_t` and wrap, and a read past the end
is not an exception : nothing can be said of what follows. `IConnection` and ODBC compare the
size by a division first, MySQL and PostgreSQL do not (`batchContract_iff`).
-/

namespace CppLinq

/-- A step of `insert_many_batch`. -/
inductive BatchStep
  /-- `flat_params[index]`. -/
  | read (index : ℕ)
  | allocate
  | prepare (sql : List Char)
  | setRowCount (rowCount : UInt64)
  | reset
  | bind (position : ℕ) (value : BoundValue)
  | bindColumn (position : ℕ)
  | execute
  | executeArrays (rows : List (List BoundValue))
  /-- A statement that begins with a text and lists rows. -/
  | query (start : List Char) (rows : List (List BoundValue))
  | copyIn (target : List Char)
  | putCopyData (rows : List (List BoundValue))
  | putCopyEnd
  | copyResult

/-- The steps that have the server execute something. -/
def BatchStep.Executes : BatchStep → Prop
  | .execute | .executeArrays _ | .query _ _ => True
  | .copyIn _ | .putCopyData _ | .putCopyEnd => True
  | _ => False

/-- How a batch ends before its last step. -/
inductive BatchHalt
  | threw (e : Exn)
  | outOfBounds (index : ℕ)

/-- A connection and its server : whether it is open, whether COPY is taken, and which steps
throw after which. -/
structure BatchServer where
  isOpen : Bool
  takesCopy : Bool
  fails : List BatchStep → BatchStep → Option Exn

/-- Steps one after another on a vector of a size. A refused COPY does not throw. -/
def runSteps (fails : List BatchStep → BatchStep → Option Exn) (size : ℕ) :
    List BatchStep → List BatchStep → Except BatchHalt Unit × List BatchStep
  | log, [] => (.ok (), log)
  | log, .read index :: steps =>
    if index < size then runSteps fails size (log ++ [.read index]) steps
    else (.error (.outOfBounds index), log ++ [.read index])
  | log, .copyIn target :: steps => runSteps fails size (log ++ [.copyIn target]) steps
  | log, step :: steps =>
    match fails log step with
    | some e => (.error (.threw e), log ++ [step])
    | none => runSteps fails size (log ++ [step]) steps

/-! ## Rows of cells -/

section Cells

variable (flatParams : List BoundValue) (colCount : UInt64)

/-- `0`, `1`, … below a count. -/
def upTo (count : UInt64) : List UInt64 :=
  (List.range count.toNat).map .ofNat

/-- `row * col_count + c`. -/
def cellIndex (row c : UInt64) : ℕ :=
  (row * colCount + c).toNat

/-- The cells of a row, by their indices. -/
def cellIndices (row : UInt64) : List ℕ :=
  (upTo colCount).map (cellIndex colCount row)

/-- The values of a row. -/
def rowAt (row : UInt64) : List BoundValue :=
  (cellIndices colCount row).map fun i => flatParams.getD i .null

/-- One row of a column is read, by its number. -/
def readRow (row : UInt64) : List BatchStep :=
  (cellIndices colCount row).map .read

/-- Read and bind each cell of a row. -/
def bindRowSteps (row : UInt64) : List BatchStep :=
  (cellIndices colCount row).zipIdx.flatMap fun (i, c) =>
    [.read i, .bind c (flatParams.getD i .null)]

/-- The prepared statement for each row. -/
def loopSteps (resetFirst : Bool) (sql : List Char) (rowCount : UInt64) : List BatchStep :=
  .prepare sql :: (upTo rowCount).flatMap fun row =>
    (if resetFirst ∨ row ≠ 0 then [.reset] else []) ++ bindRowSteps flatParams colCount row ++
      [.execute]

/-- The columns of ODBC : their types are found from all rows, then the cells are copied, and the
arrays bound and executed. -/
def odbcSteps (sql : List Char) (rowCount : UInt64) : List BatchStep :=
  [.allocate, .prepare sql, .setRowCount rowCount] ++
    ((upTo colCount).flatMap fun c =>
      (upTo rowCount).map fun row => .read (cellIndex colCount row c)) ++
    (upTo rowCount).flatMap (readRow colCount) ++
    (List.range colCount.toNat).map .bindColumn ++
    [.executeArrays ((upTo rowCount).map (rowAt flatParams colCount))]

/-- One statement for each chunk of rows. The loop over offsets takes no more than `row_count`
turns. -/
def mysqlSteps (start : List Char) (rowCount : UInt64) : List BatchStep :=
  (chunkLoop (.ofNat batchChunk) rowCount (rowCount.toNat + 1) 0).flatMap fun (offset, batch) =>
    ((upTo batch).flatMap fun r => readRow colCount (offset + r)) ++
      [.query start ((upTo batch).map fun r => rowAt flatParams colCount (offset + r))]

/-- Rows are read into a buffer, which is sent when it is full, and at the end. -/
def copySteps (doubleText : Double → List Char) :
    List (List BoundValue) → List UInt64 → List BatchStep
  | buffered, [] =>
    (if buffered.isEmpty then [] else [.putCopyData buffered]) ++ [.putCopyEnd, .copyResult]
  | buffered, row :: rows =>
    let buffer := buffered ++ [rowAt flatParams colCount row]
    readRow colCount row ++
      if flushes (copyText doubleText buffer) then
        .putCopyData buffer :: copySteps doubleText [] rows
      else copySteps doubleText buffer rows

end Cells

/-! ## The implementations -/

/-- Who implements `insert_many_batch`. -/
inductive BatchDriver
  | connection | odbc | mysql | postgres
  deriving DecidableEq

namespace BatchDriver

/-- The comparison of sizes, which is done by a division. -/
def checks : BatchDriver → Bool
  | .connection | .odbc => true
  | .mysql | .postgres => false

/-- What a connection that is not open says, where it is asked. -/
def notOpen : BatchDriver → Option String
  | .connection | .odbc => none
  | .mysql => some "MySQL connection is not open"
  | .postgres => some "PostgreSQL connection is not open"

/-- The steps after the checks. -/
def steps (driver : BatchDriver) (doubleText : Double → List Char) (takesCopy : Bool)
    (sql : List Char) (flatParams : List BoundValue) (colCount rowCount : UInt64) :
    List BatchStep :=
  match driver with
  | .connection => loopSteps flatParams colCount false sql rowCount
  | .odbc => odbcSteps flatParams colCount sql rowCount
  | .mysql =>
    match valuesPrefix sql with
    | some start => mysqlSteps flatParams colCount start rowCount
    | none => loopSteps flatParams colCount true sql rowCount
  | .postgres =>
    match copyTarget sql with
    | some target =>
      .copyIn target ::
        if takesCopy then copySteps flatParams colCount doubleText [] (upTo rowCount)
        else loopSteps flatParams colCount true sql rowCount
    | none => loopSteps flatParams colCount true sql rowCount

/-- `insert_many_batch`, without the count that it returns. -/
def insertManyBatch (driver : BatchDriver) (doubleText : Double → List Char)
    (server : BatchServer) (sql : List Char) (flatParams : List BoundValue)
    (colCount rowCount : UInt64) : Except BatchHalt Unit × List BatchStep :=
  if rowCount = 0 ∨ colCount = 0 then (.ok (), [])
  else if driver.checks ∧ .ofNat flatParams.length / colCount < rowCount then
    (.error (.threw (.dbException
      "insert_many_batch: flat_params size is smaller than row_count * col_count")), [])
  else
    match driver.notOpen, server.isOpen with
    | some what, false => (.error (.threw (.dbException what)), [])
    | _, _ => runSteps server.fails flatParams.length []
        (driver.steps doubleText server.takesCopy sql flatParams colCount rowCount)

end BatchDriver

/-! ## What a batch may do -/

/-- A vector that is too short is refused with a `DbException` before anything is executed, and
no other vector is read past its end. -/
structure BatchContract (size colCount rowCount : ℕ)
    (result : Except BatchHalt Unit × List BatchStep) : Prop where
  rejects : size < rowCount * colCount →
    (∃ what, result.1 = .error (.threw (.dbException what))) ∧ ∀ step ∈ result.2, ¬ step.Executes
  inBounds : rowCount * colCount ≤ size → ∀ index, .read index ∈ result.2 → index < size

section Runs

/-- A step stops the run, at a read past the end or with what the server throws, or the rest
follows. -/
theorem runSteps_cons (fails : List BatchStep → BatchStep → Option Exn) (size : ℕ)
    (log : List BatchStep) (step : BatchStep) (steps : List BatchStep) :
    (∃ index, step = .read index ∧ size ≤ index ∧
      runSteps fails size log (step :: steps) =
        (.error (.outOfBounds index), log ++ [step])) ∨
    (∃ e, fails log step = some e ∧
      runSteps fails size log (step :: steps) = (.error (.threw e), log ++ [step])) ∨
    (∀ index, step = .read index → index < size) ∧
      runSteps fails size log (step :: steps) = runSteps fails size (log ++ [step]) steps := by
  cases step with
  | read index =>
    by_cases hlt : index < size
    · exact .inr (.inr ⟨fun _ h => BatchStep.read.inj h ▸ hlt, if_pos hlt⟩)
    · exact .inl ⟨index, rfl, Nat.le_of_not_lt hlt, if_neg hlt⟩
  | copyIn target => exact .inr (.inr ⟨(fun _ h => nomatch h), rfl⟩)
  | _ =>
    simp only [runSteps]
    split
    · rename_i e he
      exact .inr (.inl ⟨e, he, rfl⟩)
    · exact .inr (.inr ⟨(fun _ h => nomatch h), rfl⟩)

/-- The steps that are taken are a beginning of those planned. -/
theorem runSteps_log (fails : List BatchStep → BatchStep → Option Exn) (size : ℕ)
    (steps log : List BatchStep) :
    ∃ taken, taken <+: steps ∧ (runSteps fails size log steps).2 = log ++ taken := by
  induction steps generalizing log with
  | nil => exact ⟨[], List.nil_prefix, (List.append_nil log).symm⟩
  | cons step steps ih =>
    obtain ⟨_, -, -, hrun⟩ | ⟨_, -, hrun⟩ | ⟨-, hrun⟩ := runSteps_cons fails size log step steps
    · exact ⟨[step], by simp, by rw [hrun]⟩
    · exact ⟨[step], by simp, by rw [hrun]⟩
    · obtain ⟨taken, htaken, hlog⟩ := ih (log ++ [step])
      exact ⟨step :: taken, by simpa using htaken, by rw [hrun, hlog, List.append_assoc]; rfl⟩

/-- Where nothing throws, a read past the end is reached. -/
theorem runSteps_outOfBounds {size : ℕ} {steps : List BatchStep} {index : ℕ}
    (hmem : .read index ∈ steps) (hindex : size ≤ index) (log : List BatchStep) :
    ∃ i, (runSteps (fun _ _ => none) size log steps).1 = .error (.outOfBounds i) := by
  induction steps generalizing log with
  | nil => exact absurd hmem List.not_mem_nil
  | cons step steps ih =>
    obtain ⟨i, -, -, hrun⟩ | ⟨_, hnone, -⟩ | ⟨hlt, hrun⟩ :=
      runSteps_cons (fun _ _ => none) size log step steps
    · exact ⟨i, by rw [hrun]⟩
    · cases hnone
    · have hne : .read index ≠ step := fun h => Nat.not_lt.mpr hindex (hlt index h.symm)
      rw [hrun]
      exact ih ((List.mem_cons.mp hmem).resolve_left hne) _

end Runs

/-! ## Which cells are read -/

theorem mem_upTo {r count : UInt64} : r ∈ upTo count ↔ r < count := by
  rw [upTo, List.mem_map, UInt64.lt_iff_toNat_lt]
  constructor
  · rintro ⟨k, hk, rfl⟩
    rw [List.mem_range] at hk
    have hlt := count.toNat_lt
    rwa [UInt64.toNat_ofNat_of_lt' (Nat.lt_trans hk hlt)]
  · intro h
    exact ⟨r.toNat, List.mem_range.mpr h, UInt64.ofNat_toNat⟩

section Reads

variable {flatParams : List BoundValue} {colCount rowCount : UInt64}

/-- Where the matrix fits, a cell is inside. -/
theorem lt_of_mem_cellIndices {size : ℕ}
    (hfits : rowCount.toNat * colCount.toNat ≤ size) {row : UInt64} (hrow : row < rowCount)
    {index : ℕ} (h : index ∈ cellIndices colCount row) : index < size := by
  obtain ⟨c, hc, rfl⟩ := List.mem_map.mp h
  have hc := UInt64.lt_iff_toNat_lt.mp (mem_upTo.mp hc)
  have hrow := UInt64.lt_iff_toNat_lt.mp hrow
  have hcell : row.toNat * colCount.toNat + c.toNat < rowCount.toNat * colCount.toNat := by
    calc row.toNat * colCount.toNat + c.toNat
        < row.toNat * colCount.toNat + colCount.toNat := Nat.add_lt_add_left hc _
      _ = (row.toNat + 1) * colCount.toNat := (Nat.succ_mul _ _).symm
      _ ≤ rowCount.toNat * colCount.toNat := Nat.mul_le_mul_right _ hrow
  rw [cellIndex, UInt64.toNat_add, UInt64.toNat_mul, Nat.mod_add_mod]
  exact Nat.lt_of_le_of_lt (Nat.mod_le _ _) (Nat.lt_of_lt_of_le hcell hfits)

/-- Where the matrix does not fit, a cell is the first past the end. -/
theorem exists_cell_of_short {size : ℕ} (hsize : size < 2 ^ 64) (hcol : colCount ≠ 0)
    (hshort : size < rowCount.toNat * colCount.toNat) :
    ∃ row < rowCount, size ∈ cellIndices colCount row := by
  have hpos : 0 < colCount.toNat := Nat.pos_of_ne_zero fun h => hcol (UInt64.toNat_inj.mp h)
  have hrow : size / colCount.toNat < rowCount.toNat := (Nat.div_lt_iff_lt_mul hpos).mpr hshort
  have hc : size % colCount.toNat < colCount.toNat := Nat.mod_lt _ hpos
  have hrownat : (UInt64.ofNat (size / colCount.toNat)).toNat = size / colCount.toNat :=
    UInt64.toNat_ofNat_of_lt' (Nat.lt_trans hrow rowCount.toNat_lt)
  have hcnat : (UInt64.ofNat (size % colCount.toNat)).toNat = size % colCount.toNat :=
    UInt64.toNat_ofNat_of_lt' (Nat.lt_trans hc colCount.toNat_lt)
  refine ⟨.ofNat (size / colCount.toNat), ?_, List.mem_map.mpr
    ⟨.ofNat (size % colCount.toNat), mem_upTo.mpr ?_, ?_⟩⟩
  · rwa [UInt64.lt_iff_toNat_lt, hrownat]
  · rwa [UInt64.lt_iff_toNat_lt, hcnat]
  · rw [cellIndex, UInt64.toNat_add, UInt64.toNat_mul, Nat.mod_add_mod, hrownat, hcnat,
      Nat.div_add_mod', Nat.mod_eq_of_lt hsize]

theorem read_mem_readRow {row : UInt64} {index : ℕ} :
    .read index ∈ readRow colCount row ↔ index ∈ cellIndices colCount row := by
  simp [readRow]

theorem read_mem_bindRowSteps {row : UInt64} {index : ℕ} :
    .read index ∈ bindRowSteps flatParams colCount row ↔ index ∈ cellIndices colCount row := by
  rw [bindRowSteps, List.mem_flatMap]
  constructor
  · rintro ⟨⟨i, c⟩, hmem, hread⟩
    have hi := List.fst_mem_of_mem_zipIdx hmem
    simp only [List.mem_cons, BatchStep.read.injEq, reduceCtorEq, List.not_mem_nil, or_false]
      at hread
    rwa [hread]
  · intro h
    obtain ⟨k, hk, rfl⟩ := List.getElem_of_mem h
    exact ⟨((cellIndices colCount row)[k], k), by simp [List.mem_zipIdx_iff_getElem?, hk],
      List.mem_cons_self⟩

theorem read_mem_loopSteps {resetFirst : Bool} {sql : List Char} {index : ℕ} :
    .read index ∈ loopSteps flatParams colCount resetFirst sql rowCount ↔
      ∃ row < rowCount, index ∈ cellIndices colCount row := by
  have hrow : ∀ row : UInt64,
      .read index ∈ (if resetFirst ∨ row ≠ 0 then [BatchStep.reset] else []) ++
      bindRowSteps flatParams colCount row ++ [.execute] ↔ index ∈ cellIndices colCount row := by
    intro row
    rw [List.mem_append, List.mem_append, read_mem_bindRowSteps]
    constructor
    · rintro ((h | h) | h)
      · split at h
        · simp at h
        · contradiction
      · exact h
      · simp at h
    · exact fun h => .inl (.inr h)
  rw [loopSteps, List.mem_cons, List.mem_flatMap]
  simp only [reduceCtorEq, false_or, hrow, mem_upTo]

theorem read_mem_copySteps {doubleText : Double → List Char} {index : ℕ} (rows : List UInt64)
    (buffered : List (List BoundValue)) :
    .read index ∈ copySteps flatParams colCount doubleText buffered rows ↔
      ∃ row ∈ rows, index ∈ cellIndices colCount row := by
  induction rows generalizing buffered with
  | nil =>
    rw [copySteps]
    split <;> simp
  | cons row rows ih =>
    rw [copySteps, List.mem_append, read_mem_readRow]
    simp only [List.mem_cons, exists_eq_or_imp]
    split
    · rw [List.mem_cons, ih]
      simp only [reduceCtorEq, false_or]
    · rw [ih]

/-- Every row below the count is in a chunk, and a chunk has no other. -/
theorem exists_mem_chunkLoop {size row : UInt64} (hrow : row < size) (turns : ℕ)
    (offset : UInt64) (hoffset : offset ≤ row) (hturns : row.toNat < turns + offset.toNat) :
    ∃ turn ∈ chunkLoop (.ofNat batchChunk) size turns offset,
      ∃ r < turn.2, turn.1 + r = row := by
  have hrow' := UInt64.lt_iff_toNat_lt.mp hrow
  induction turns generalizing offset with
  | zero =>
    have hle := UInt64.le_iff_toNat_le.mp hoffset
    omega
  | succ turns ih =>
    have hle := UInt64.le_iff_toNat_le.mp hoffset
    have hlt : offset < size := UInt64.lt_of_le_of_lt hoffset hrow
    have hchunk : (UInt64.ofNat batchChunk).toNat = 2000 := rfl
    have hsub : (row - offset).toNat = row.toNat - offset.toNat :=
      UInt64.toNat_sub_of_le _ _ hoffset
    have hrest : (size - offset).toNat = size.toNat - offset.toNat :=
      UInt64.toNat_sub_of_le _ _ (UInt64.le_of_lt hlt)
    rw [chunkLoop, if_pos hlt]
    by_cases hfirst : row.toNat - offset.toNat < 2000
    · refine ⟨_, List.mem_cons_self, row - offset, ?_, ?_⟩
      · dsimp only
        split
        · rw [UInt64.lt_iff_toNat_lt, hsub, hrest]
          omega
        · rw [UInt64.lt_iff_toNat_lt, hsub, hchunk]
          exact hfirst
      · rw [← UInt64.toNat_inj, UInt64.toNat_add, hsub]
        have hbound := row.toNat_lt
        dsimp only
        omega
    · have hnext : (offset + .ofNat batchChunk).toNat = offset.toNat + 2000 := by
        rw [UInt64.toNat_add, hchunk]
        have hbound := row.toNat_lt
        omega
      obtain ⟨turn, hturn, r, hr, hsum⟩ := ih (offset + .ofNat batchChunk)
        (by rw [UInt64.le_iff_toNat_le, hnext]; omega) (by rw [hnext]; omega)
      exact ⟨turn, List.mem_cons_of_mem _ hturn, r, hr, hsum⟩

theorem add_le_of_mem_chunkLoop {size : UInt64} {turns : ℕ} {offset : UInt64}
    {turn : UInt64 × UInt64} (h : turn ∈ chunkLoop (.ofNat batchChunk) size turns offset) :
    turn.1.toNat + turn.2.toNat ≤ size.toNat := by
  induction turns generalizing offset with
  | zero => contradiction
  | succ turns ih =>
    rw [chunkLoop] at h
    split at h
    · rename_i hlt
      rcases List.mem_cons.mp h with rfl | h
      · have hrest : (size - offset).toNat = size.toNat - offset.toNat :=
          UInt64.toNat_sub_of_le _ _ (UInt64.le_of_lt hlt)
        have hlt' := UInt64.lt_iff_toNat_lt.mp hlt
        dsimp only
        split
        · omega
        · rename_i hge
          have hge := UInt64.le_iff_toNat_le.mp (UInt64.not_lt.mp hge)
          omega
      · exact ih h
    · contradiction

theorem add_lt_of_mem_chunkLoop {size : UInt64} {turns : ℕ} {offset : UInt64}
    {turn : UInt64 × UInt64} (h : turn ∈ chunkLoop (.ofNat batchChunk) size turns offset)
    {r : UInt64} (hr : r < turn.2) : turn.1 + r < size := by
  have hle := add_le_of_mem_chunkLoop h
  have hr := UInt64.lt_iff_toNat_lt.mp hr
  have hsize := size.toNat_lt
  rw [UInt64.lt_iff_toNat_lt, UInt64.toNat_add]
  omega

theorem read_mem_mysqlSteps {start : List Char} {index : ℕ} :
    .read index ∈ mysqlSteps flatParams colCount start rowCount ↔
      ∃ row < rowCount, index ∈ cellIndices colCount row := by
  rw [mysqlSteps, List.mem_flatMap]
  constructor
  · rintro ⟨turn, hturn, hread⟩
    rcases List.mem_append.mp hread with hread | hread
    · obtain ⟨r, hr, hread⟩ := List.mem_flatMap.mp hread
      exact ⟨turn.1 + r, add_lt_of_mem_chunkLoop hturn (mem_upTo.mp hr),
        read_mem_readRow.mp hread⟩
    · simp at hread
  · rintro ⟨row, hrow, hindex⟩
    obtain ⟨turn, hturn, r, hr, rfl⟩ := exists_mem_chunkLoop hrow (rowCount.toNat + 1) 0
      UInt64.zero_le (Nat.lt_succ_of_lt (UInt64.lt_iff_toNat_lt.mp hrow))
    exact ⟨turn, hturn, List.mem_append_left _
      (List.mem_flatMap.mpr ⟨r, mem_upTo.mpr hr, read_mem_readRow.mpr hindex⟩)⟩

theorem read_mem_odbcSteps {sql : List Char} {index : ℕ} :
    .read index ∈ odbcSteps flatParams colCount sql rowCount ↔
      ∃ row < rowCount, index ∈ cellIndices colCount row := by
  have hcells : ∀ c row : UInt64, c < colCount →
      cellIndex colCount row c ∈ cellIndices colCount row :=
    fun c row hc => List.mem_map_of_mem (mem_upTo.mpr hc)
  rw [odbcSteps]
  simp only [List.mem_append, List.mem_flatMap, List.mem_map, List.mem_cons, read_mem_readRow,
    mem_upTo, reduceCtorEq, BatchStep.read.injEq, List.not_mem_nil, or_false, false_or, and_false,
    exists_false]
  constructor
  · rintro (⟨c, hc, row, hrow, rfl⟩ | h)
    · exact ⟨row, hrow, hcells c row hc⟩
    · exact h
  · exact .inr

/-- Every implementation reads the cells of the rows, and no others. -/
theorem read_mem_steps (driver : BatchDriver) (doubleText : Double → List Char) (takesCopy : Bool)
    (sql : List Char) (flatParams : List BoundValue) {index : ℕ} :
    .read index ∈ driver.steps doubleText takesCopy sql flatParams colCount rowCount ↔
      ∃ row < rowCount, index ∈ cellIndices colCount row := by
  cases driver with
  | connection => exact read_mem_loopSteps
  | odbc => exact read_mem_odbcSteps
  | mysql =>
    rw [BatchDriver.steps]
    split
    · exact read_mem_mysqlSteps
    · exact read_mem_loopSteps
  | postgres =>
    rw [BatchDriver.steps]
    split
    · rw [List.mem_cons]
      simp only [reduceCtorEq, false_or]
      split
      · rw [read_mem_copySteps]
        simp only [mem_upTo]
      · exact read_mem_loopSteps
    · exact read_mem_loopSteps

end Reads

/-! ## Who keeps the contract -/

section Contract

variable {driver : BatchDriver} {doubleText : Double → List Char} {sql : List Char}
  {flatParams : List BoundValue} {colCount rowCount : UInt64}

/-- The division tells which vectors are too short. -/
theorem div_lt_iff_short (hsize : flatParams.length < 2 ^ 64) (hcol : colCount ≠ 0) :
    .ofNat flatParams.length / colCount < rowCount ↔
      flatParams.length < rowCount.toNat * colCount.toNat := by
  have hpos : 0 < colCount.toNat := Nat.pos_of_ne_zero fun h => hcol (UInt64.toNat_inj.mp h)
  rw [UInt64.lt_iff_toNat_lt, UInt64.toNat_div, UInt64.toNat_ofNat_of_lt' hsize,
    Nat.div_lt_iff_lt_mul hpos]

/-- A batch that only reads and runs its steps is never read past its end, where it fits. -/
theorem inBounds_insertManyBatch (server : BatchServer)
    (hfits : rowCount.toNat * colCount.toNat ≤ flatParams.length) (index : ℕ)
    (h : .read index ∈ (driver.insertManyBatch doubleText server sql flatParams colCount
      rowCount).2) : index < flatParams.length := by
  rw [BatchDriver.insertManyBatch] at h
  split_ifs at h
  · contradiction
  · contradiction
  · split at h
    · contradiction
    · obtain ⟨taken, htaken, hlog⟩ := runSteps_log server.fails flatParams.length
        (driver.steps doubleText server.takesCopy sql flatParams colCount rowCount) []
      rw [hlog, List.nil_append] at h
      obtain ⟨row, hrow, hindex⟩ := (read_mem_steps _ _ _ _ _).mp (htaken.mem h)
      exact lt_of_mem_cellIndices hfits hrow hindex

variable (doubleText) (sql) in
/-- A connection without checks that accepts every step reads a short vector past its end. -/
theorem outOfBounds_insertManyBatch (hsize : flatParams.length < 2 ^ 64) (hcol : colCount ≠ 0)
    (hrow : rowCount ≠ 0) (hchecks : driver.checks = false)
    (hshort : flatParams.length < rowCount.toNat * colCount.toNat) :
    ∃ i, (driver.insertManyBatch doubleText ⟨true, true, fun _ _ => none⟩ sql flatParams colCount
      rowCount).1 = .error (.outOfBounds i) := by
  obtain ⟨row, hlt, hindex⟩ := exists_cell_of_short hsize hcol hshort
  have hzero : ¬ (rowCount = 0 ∨ colCount = 0) := fun h => h.elim hrow hcol
  have hcheck : ¬ (driver.checks = true ∧
      UInt64.ofNat flatParams.length / colCount < rowCount) := by
    rw [hchecks]
    exact fun h => nomatch h.1
  obtain ⟨i, hi⟩ := runSteps_outOfBounds
    ((read_mem_steps driver doubleText true sql flatParams).mpr ⟨row, hlt, hindex⟩)
    (Nat.le_refl flatParams.length) []
  refine ⟨i, ?_⟩
  rw [BatchDriver.insertManyBatch, if_neg hzero, if_neg hcheck]
  split
  · rename_i hopen
    contradiction
  · exact hi

/-- What keeps an implementation from reading past the end : a check of the size, a vector that
is long enough, or a connection that is not open. -/
theorem batchContract_of (hsize : flatParams.length < 2 ^ 64) (hcol : colCount ≠ 0)
    (hrow : rowCount ≠ 0) {server : BatchServer}
    (h : driver.checks = true ∨ rowCount.toNat * colCount.toNat ≤ flatParams.length ∨
      server.isOpen = false) :
    BatchContract flatParams.length colCount.toNat rowCount.toNat
      (driver.insertManyBatch doubleText server sql flatParams colCount rowCount) := by
  refine ⟨fun hshort => ?_, fun hfits => inBounds_insertManyBatch server hfits⟩
  have hzero : ¬ (rowCount = 0 ∨ colCount = 0) := fun h => h.elim hrow hcol
  have hdiv : .ofNat flatParams.length / colCount < rowCount :=
    (div_lt_iff_short hsize hcol).mpr hshort
  rw [BatchDriver.insertManyBatch, if_neg hzero]
  by_cases hchecks : driver.checks = true
  · rw [if_pos ⟨hchecks, hdiv⟩]
    exact ⟨⟨_, rfl⟩, fun _ h => nomatch h⟩
  · have hopen : server.isOpen = false := by
      rcases h with h | h | h
      · contradiction
      · omega
      · exact h
    rw [if_neg fun h => hchecks h.1, hopen]
    cases driver with
    | connection | odbc => exact absurd rfl hchecks
    | mysql | postgres => exact ⟨⟨_, rfl⟩, fun _ h => nomatch h⟩

/-- An implementation keeps the contract with every server where it checks the size, or the
vector is long enough, or it finds the connection closed. -/
theorem batchContract_iff (hsize : flatParams.length < 2 ^ 64) (hcol : colCount ≠ 0)
    (hrow : rowCount ≠ 0) (isOpen : Bool) :
    (∀ server : BatchServer, server.isOpen = isOpen →
      BatchContract flatParams.length colCount.toNat rowCount.toNat
        (driver.insertManyBatch doubleText server sql flatParams colCount rowCount)) ↔
      driver.checks = true ∨ rowCount.toNat * colCount.toNat ≤ flatParams.length ∨
        isOpen = false := by
  constructor
  · intro h
    by_contra hnot
    push Not at hnot
    obtain ⟨hchecks, hshort, hopen⟩ := hnot
    have hopen : isOpen = true := by simpa using hopen
    subst hopen
    obtain ⟨i, hi⟩ := outOfBounds_insertManyBatch doubleText sql hsize hcol hrow
      (by simpa using hchecks) hshort
    obtain ⟨what, hwhat⟩ := ((h ⟨true, true, fun _ _ => none⟩ rfl).rejects hshort).1
    rw [hi] at hwhat
    cases hwhat
  · rintro h server rfl
    exact batchContract_of hsize hcol hrow h

end Contract

/-- ODBC refuses three parameters for two rows of two. -/
theorem batchContract_odbc_at :
    (∀ server : BatchServer, server.isOpen = true →
      BatchContract 3 2 2 (BatchDriver.odbc.insertManyBatch (fun _ => []) server []
        [.null, .null, .null] 2 2)) ↔
      BatchDriver.odbc.checks = true ∨ 2 * 2 ≤ 3 ∨ true = false :=
  @batchContract_iff .odbc (fun _ => []) [] [.null, .null, .null] 2 2 (by decide) (by decide)
    (by decide) true

/-- MySQL reads a fourth. -/
theorem not_batchContract_mysql :
    ¬ BatchContract 3 2 2 (BatchDriver.mysql.insertManyBatch (fun _ => [])
      ⟨true, true, fun _ _ => none⟩ "INSERT INTO t (a, b) VALUES (?, ?)".toList
      [.null, .null, .null] 2 2) := by
  intro h
  obtain ⟨what, hwhat⟩ := (h.rejects (by decide)).1
  obtain ⟨i, hi⟩ := @outOfBounds_insertManyBatch .mysql (fun _ => [])
    "INSERT INTO t (a, b) VALUES (?, ?)".toList [.null, .null, .null] 2 2 (by decide) (by decide)
    (by decide) rfl (by decide)
  rw [hi] at hwhat
  cases hwhat

end CppLinq
