import CppLinq.BatchAlignment

/-!
# The row counts of batch operations

`update_many` and `delete_many` add up the numbers that their calls return. A statement
executed by itself returns what the server reports, and so does the `insert_many_batch` of
`IConnection` for the statements of a batch. The drivers that override it do not
(`ServerKind.insertManyBatchCount`) : PostgreSQL and MySQL return the number of rows they were
given, the ODBC drivers a number that is never between zero and that.

What the statements of a call report is the server's affair : a function `reports` of the calls
so far. `Session.Makes` says which calls a computation makes when nothing throws, and what it
returns.
-/

namespace CppLinq

/-! ## What the drivers count -/

/-- The number `insert_many_batch` returns for a batch of `rowCount` rows, where its statements
affected `affected` rows each. ODBC asks once for all of them (`SQLRowCount`). -/
def ServerKind.insertManyBatchCount (kind : ServerKind) (colCount rowCount : ℕ)
    (affected : List ℕ) : ℕ :=
  if rowCount = 0 ∨ colCount = 0 then 0
  else
    match kind with
    | .sqlite => affected.sum
    | .postgres | .mysql => rowCount
    | .odbc =>
      if affected.sum = 0 then 0
      else if affected.sum ≥ rowCount then affected.sum else rowCount

/-- The number the last call returns. -/
def ServerKind.counted (kind : ServerKind) (reports : List DriverCall → List ℕ)
    (log : List DriverCall) : ℕ :=
  match log.getLast? with
  | some (.insertManyBatch _ _ colCount rowCount) =>
    kind.insertManyBatchCount colCount rowCount (reports log)
  | _ => (reports log).sum

/-- The connection with the counts of a driver. -/
def Connection.counting (conn : Connection) (kind : ServerKind)
    (reports : List DriverCall → List ℕ) : Connection :=
  { conn with affected := kind.counted reports }

/-- The rows that a call affected, as the server reports them. -/
def reportedBy (reports : List DriverCall → List ℕ) (log : List DriverCall) : DriverCall → ℕ
  | .executeNonQuery => (reports (log ++ [.executeNonQuery])).sum
  | .insertManyBatch sql flat colCount rowCount =>
    (reports (log ++ [.insertManyBatch sql flat colCount rowCount])).sum
  | _ => 0

/-- The rows that calls affected, after those of `log`. -/
def reportedTotal (reports : List DriverCall → List ℕ) : List DriverCall → List DriverCall → ℕ
  | _, [] => 0
  | log, c :: cs => reportedBy reports log c + reportedTotal reports (log ++ [c]) cs

/-- Reports add up. -/
theorem reportedTotal_append (reports : List DriverCall → List ℕ) (log cs ds : List DriverCall) :
    reportedTotal reports log (cs ++ ds) =
      reportedTotal reports log cs + reportedTotal reports (log ++ cs) ds := by
  induction cs generalizing log with
  | nil => rw [List.append_nil, reportedTotal, Nat.zero_add, List.nil_append]
  | cons c cs ih =>
    rw [List.cons_append, reportedTotal, reportedTotal, ih, List.append_assoc, Nat.add_assoc]
    rfl

/-- Bindings are not reported. -/
theorem reportedTotal_bindCalls (reports : List DriverCall → List ℕ) (vs : List BoundValue) :
    ∀ (log : List DriverCall) (k : ℕ), reportedTotal reports log (bindCalls k vs) = 0 := by
  induction vs with
  | nil => exact fun _ _ => rfl
  | cons v vs ih =>
    intro log k
    rw [bindCalls, reportedTotal, ih]
    rfl

/-! ## What a computation makes and returns -/

/-- If `m` returns after the calls of `log`, it has made the calls `cs`, and returns `a`. -/
def Session.Makes {α : Type} (m : Session α) (log cs : List DriverCall) (a : α) : Prop :=
  ∀ b log', m log = (.ok b, log') → log' = log ++ cs ∧ b = a

section Makes

variable {α β : Type} {m : Session α} {f : α → Session β} {log cs ds : List DriverCall} {a : α}
  {b : β}

theorem makes_pure (log : List DriverCall) (a : α) :
    Session.Makes (pure a : Session α) log [] a := by
  intro b log' h
  injection h with hb hlog
  injection hb with hb
  rw [← hlog, ← hb, List.append_nil]
  exact ⟨rfl, rfl⟩

theorem makes_get (log : List DriverCall) :
    Session.Makes (get : Session (List DriverCall)) log [] log := by
  intro b log' h
  injection h with hb hlog
  injection hb with hb
  rw [← hlog, ← hb, List.append_nil]
  exact ⟨rfl, rfl⟩

/-- A session that returns makes its calls and those of what follows. -/
theorem Session.Makes.bind (hm : Session.Makes m log cs a)
    (hf : Session.Makes (f a) (log ++ cs) ds b) : Session.Makes (m >>= f) log (cs ++ ds) b := by
  intro b' log' h
  rw [Session.bind_eq] at h
  rcases hrun : m log with ⟨r, log₁⟩
  rw [hrun] at h
  cases r with
  | error e => injection h with hb; contradiction
  | ok a' =>
    obtain ⟨rfl, rfl⟩ := hm a' log₁ hrun
    obtain ⟨rfl, rfl⟩ := hf b' log' h
    exact ⟨List.append_assoc _ _ _, rfl⟩

theorem makes_call (driver : Driver) (log : List DriverCall) (c : DriverCall) :
    Session.Makes (call driver c) log [c] () := by
  intro b log' h
  rw [call_eq] at h
  injection h with _ hlog
  exact ⟨hlog.symm, rfl⟩

theorem makes_callAll (driver : Driver) (cs : List DriverCall) :
    ∀ log, Session.Makes (callAll driver cs) log cs () := by
  induction cs with
  | nil => exact fun log => makes_pure log ()
  | cons c cs ih => exact fun log => (makes_call driver log c).bind (ih (log ++ [c]))

variable (conn : Connection)

/-- A call whose answer is read off the calls so far. -/
theorem makes_answer (driver : Driver) (log : List DriverCall) (c : DriverCall)
    (answer : List DriverCall → ℕ) :
    Session.Makes (do call driver c; return answer (← get) : Session ℕ) log [c]
      (answer (log ++ [c])) := by
  have hget : Session.Makes (do return answer (← get) : Session ℕ) (log ++ [c]) ([] ++ [])
      (answer (log ++ [c])) :=
    (makes_get (log ++ [c])).bind (f := fun l => pure (answer l)) (makes_pure _ _)
  exact (makes_call driver log c).bind (f := fun _ => (do return answer (← get) : Session ℕ)) hget

theorem makes_executeNonQuery (log : List DriverCall) :
    Session.Makes conn.executeNonQuery log [.executeNonQuery]
      (conn.affected (log ++ [.executeNonQuery])) :=
  makes_answer conn.driver log .executeNonQuery conn.affected

theorem makes_insertManyBatch (log : List DriverCall) (sql : Text) (flatParams : List BoundValue)
    (colCount rowCount : ℕ) :
    Session.Makes (conn.insertManyBatch sql flatParams colCount rowCount) log
      [.insertManyBatch sql flatParams colCount rowCount]
      (conn.affected (log ++ [.insertManyBatch sql flatParams colCount rowCount])) :=
  makes_answer conn.driver log _ conn.affected

/-- What follows a call that is accepted. -/
theorem ok_of_call_bind {driver : Driver} {c : DriverCall} {g : Unit → Session β} {b : β}
    {log log' : List DriverCall} (h : (call driver c >>= g) log = (.ok b, log')) :
    g () (log ++ [c]) = (.ok b, log') := by
  rw [Session.bind_eq, call_eq] at h
  split at h
  · rename_i heq
    injection heq with _ hlog
    rw [hlog]
    exact h
  · injection h with hb
    contradiction

theorem makes_executeWith (log : List DriverCall) (params : List BoundValue) :
    Session.Makes (conn.executeWith params) log (bindCalls 0 params ++ [.executeNonQuery])
      (conn.affected (log ++ (bindCalls 0 params ++ [.executeNonQuery]))) := by
  have h := (makes_callAll conn.driver (bindCalls 0 params) log).bind
    (f := fun _ => conn.executeNonQuery) (makes_executeNonQuery conn (log ++ bindCalls 0 params))
  rwa [List.append_assoc] at h

/-- The numbers returned for one element after another. -/
def sumReturned (returned : List DriverCall → α → ℕ) (calls : α → List DriverCall) :
    List DriverCall → List α → ℕ
  | _, [] => 0
  | log, x :: xs => returned log x + sumReturned returned calls (log ++ calls x) xs

/-- A loop makes the calls of each turn, and adds up what they return. -/
theorem makes_sumOver {g : α → Session ℕ} {returned : List DriverCall → α → ℕ}
    {calls : α → List DriverCall}
    (h : ∀ log x, Session.Makes (g x) log (calls x) (returned log x)) (xs : List α) :
    ∀ log, Session.Makes (sumOver g xs) log (xs.flatMap calls)
      (sumReturned returned calls log xs) := by
  induction xs with
  | nil => exact fun log => makes_pure log 0
  | cons x xs ih =>
    intro log
    have hsum := (h log x).bind (f := fun n => do
      let m ← sumOver g xs
      return n + m) ((ih (log ++ calls x)).bind (makes_pure _ _))
    rw [List.append_nil] at hsum
    exact hsum

/-- A transaction stands around the calls. -/
theorem makes_transaction (h : Session.Makes m (log ++ [.beginTransaction]) cs a) :
    Session.Makes (conn.transaction m) log (.beginTransaction :: (cs ++ [.commit])) a := by
  intro b log' hrun
  rw [conn.transaction_eq] at hrun
  split at hrun
  · injection hrun with hb
    contradiction
  · rcases hbody : m (log ++ [.beginTransaction]) with ⟨r, log₁⟩
    rw [hbody] at hrun
    cases r with
    | error e => injection hrun with hb; contradiction
    | ok a' =>
      obtain ⟨rfl, rfl⟩ := h a' log₁ hbody
      simp only at hrun
      split at hrun
      · injection hrun with hb
        contradiction
      · injection hrun with hb hlog
        injection hb with hb
        rw [← hlog, ← hb]
        exact ⟨by simp, rfl⟩

end Makes

/-! ## The sums -/

section Sums

variable {α : Type} {kind : ServerKind} {reports : List DriverCall → List ℕ}

/-- Numbers that are reported add up to the total. -/
theorem sumReturned_eq {returned : List DriverCall → α → ℕ} {calls : α → List DriverCall}
    {xs : List α} (h : ∀ x ∈ xs, ∀ log, returned log x = reportedTotal reports log (calls x)) :
    ∀ log, sumReturned returned calls log xs = reportedTotal reports log (xs.flatMap calls) := by
  induction xs with
  | nil => exact fun _ => rfl
  | cons x xs ih =>
    intro log
    rw [sumReturned, List.flatMap_cons, reportedTotal_append, h x List.mem_cons_self,
      ih fun y hy => h y (List.mem_cons_of_mem x hy)]

/-- One execution is reported once. -/
theorem reportedTotal_executeWith (log : List DriverCall) (vs : List BoundValue) :
    reportedTotal reports log (bindCalls 0 vs ++ [.executeNonQuery]) =
      (reports (log ++ (bindCalls 0 vs ++ [.executeNonQuery]))).sum := by
  rw [reportedTotal_append, reportedTotal_bindCalls, Nat.zero_add, ← List.append_assoc]
  rfl

/-- A statement executed by itself returns what is reported. -/
theorem counted_executeNonQuery (log : List DriverCall) :
    kind.counted reports (log ++ [.executeNonQuery]) =
      (reports (log ++ [.executeNonQuery])).sum := by
  rw [ServerKind.counted, List.getLast?_concat]

/-- What a driver returns for an array, by the kind of its server. -/
theorem counted_insertManyBatch (kind : ServerKind) (reports : List DriverCall → List ℕ)
    (log : List DriverCall) (sql : Text) (flat : List BoundValue) (colCount rowCount : ℕ) :
    kind.counted reports (log ++ [.insertManyBatch sql flat colCount rowCount]) =
      kind.insertManyBatchCount colCount rowCount
        (reports (log ++ [.insertManyBatch sql flat colCount rowCount])) := by
  rw [ServerKind.counted, List.getLast?_concat]

/-- Every batch affects no row, or as many as it has at least. -/
def WholeBatches (reports : List DriverCall → List ℕ) :
    List DriverCall → List DriverCall → Prop
  | _, [] => True
  | log, .insertManyBatch sql flat colCount rowCount :: cs =>
    let call := DriverCall.insertManyBatch sql flat colCount rowCount
    ((reports (log ++ [call])).sum = 0 ∨ rowCount ≤ (reports (log ++ [call])).sum) ∧
      WholeBatches reports (log ++ [call]) cs
  | log, c :: cs => WholeBatches reports (log ++ [c]) cs

/-- When the numbers of the batches add up to the rows affected : always for the loop of
`IConnection`; for PostgreSQL and MySQL if as many rows are affected as are given; for ODBC if
no batch affects some rows but fewer than it has. -/
def ServerKind.CountsMatch (kind : ServerKind) (reports : List DriverCall → List ℕ) (size : ℕ)
    (batches : List DriverCall) : Prop :=
  match kind with
  | .sqlite => True
  | .postgres | .mysql => reportedTotal reports [.beginTransaction] batches = size
  | .odbc => WholeBatches reports [.beginTransaction] batches

/-- The call for a chunk. -/
def batchCall (sql : Text) (colCount : ℕ) (row : α → List BoundValue) (part : List α) :
    DriverCall :=
  .insertManyBatch sql (part.flatMap row) colCount part.length

/-- The calls for the chunks of a list. -/
def batchCalls (sql : Text) (colCount : ℕ) (row : α → List BoundValue) (parts : List (List α)) :
    List DriverCall :=
  parts.flatMap fun part => [batchCall sql colCount row part]

variable {sql : Text} {colCount : ℕ} {row : α → List BoundValue}

/-- The numbers of the batches. -/
abbrev batchSum (kind : ServerKind) (reports : List DriverCall → List ℕ) (sql : Text)
    (colCount : ℕ) (row : α → List BoundValue) (log : List DriverCall) (parts : List (List α)) :
    ℕ :=
  sumReturned (fun log part => kind.insertManyBatchCount colCount part.length
    (reports (log ++ [batchCall sql colCount row part])))
    (fun part => [batchCall sql colCount row part]) log parts

/-- SQLite adds up the reports of the rows. -/
theorem batchSum_sqlite (hcol : colCount ≠ 0) {parts : List (List α)}
    (hparts : ∀ part ∈ parts, part ≠ []) (log : List DriverCall) :
    batchSum .sqlite reports sql colCount row log parts =
      reportedTotal reports log (batchCalls sql colCount row parts) := by
  refine sumReturned_eq (fun part hpart log => ?_) log
  have hne : ¬ (part.length = 0 ∨ colCount = 0) := by
    rw [List.length_eq_zero_iff]
    exact fun h => h.elim (hparts part hpart) hcol
  rw [ServerKind.insertManyBatchCount, if_neg hne]
  rfl

/-- PostgreSQL and MySQL count what they are given. -/
theorem batchSum_given (hkind : kind = .postgres ∨ kind = .mysql) (hcol : colCount ≠ 0)
    (parts : List (List α)) (log : List DriverCall) :
    batchSum kind reports sql colCount row log parts = parts.flatten.length := by
  induction parts generalizing log with
  | nil => rfl
  | cons part parts ih =>
    have hcount : ∀ affected, kind.insertManyBatchCount colCount part.length affected =
        part.length := by
      intro affected
      unfold ServerKind.insertManyBatchCount
      split
      · rename_i h
        exact (h.resolve_right hcol).symm
      · rcases hkind with rfl | rfl <;> rfl
    rw [batchSum, sumReturned, hcount, List.flatten_cons, List.length_append]
    exact congrArg (part.length + ·) (ih _)

/-- ODBC counts too much for a batch that affects some rows but fewer than it has, and never
too little. -/
theorem batchSum_odbc (hcol : colCount ≠ 0) {parts : List (List α)}
    (hparts : ∀ part ∈ parts, part ≠ []) (log : List DriverCall) :
    reportedTotal reports log (batchCalls sql colCount row parts) ≤
        batchSum .odbc reports sql colCount row log parts ∧
      (batchSum .odbc reports sql colCount row log parts =
          reportedTotal reports log (batchCalls sql colCount row parts) ↔
        WholeBatches reports log (batchCalls sql colCount row parts)) := by
  induction parts generalizing log with
  | nil => exact ⟨Nat.le_refl 0, iff_of_true rfl trivial⟩
  | cons part parts ih =>
    obtain ⟨hle, hiff⟩ := ih (fun p hp => hparts p (List.mem_cons_of_mem part hp))
      (log ++ [batchCall sql colCount row part])
    have hpart : ¬ (part.length = 0 ∨ colCount = 0) := by
      rw [List.length_eq_zero_iff]
      exact fun h => h.elim (hparts part List.mem_cons_self) hcol
    have hreported : reportedBy reports log (batchCall sql colCount row part) =
        (reports (log ++ [batchCall sql colCount row part])).sum := rfl
    have hwhole : WholeBatches reports log (batchCall sql colCount row part ::
        batchCalls sql colCount row parts) ↔
        ((reports (log ++ [batchCall sql colCount row part])).sum = 0 ∨
          part.length ≤ (reports (log ++ [batchCall sql colCount row part])).sum) ∧
        WholeBatches reports (log ++ [batchCall sql colCount row part])
          (batchCalls sql colCount row parts) := Iff.rfl
    have hcons : batchCalls sql colCount row (part :: parts) =
        batchCall sql colCount row part :: batchCalls sql colCount row parts := rfl
    have hsum : batchSum .odbc reports sql colCount row log (part :: parts) =
        ServerKind.odbc.insertManyBatchCount colCount part.length
            (reports (log ++ [batchCall sql colCount row part])) +
          batchSum .odbc reports sql colCount row (log ++ [batchCall sql colCount row part])
            parts := rfl
    rw [hcons, reportedTotal, hreported, hwhole, hsum,
      ServerKind.insertManyBatchCount, if_neg hpart, ← hiff]
    -- the tails only count as numbers
    generalize batchSum .odbc reports sql colCount row
      (log ++ [batchCall sql colCount row part]) parts = tail at hle ⊢
    split
    · omega
    split
    · omega
    · omega

end Sums

/-! ## The batch operations -/

section Operations

variable {α : Type} {conn : Connection} {kind : ServerKind} {reports : List DriverCall → List ℕ}

theorem reportedTotal_transaction (cs : List DriverCall) :
    reportedTotal reports [] (.beginTransaction :: (cs ++ [.commit])) =
      reportedTotal reports [.beginTransaction] cs := by
  rw [reportedTotal, List.nil_append, reportedTotal_append]
  simp [reportedTotal, reportedBy]

/-- A transaction that sends one array for each chunk. -/
theorem arrays_count {sql : Text} {colCount : ℕ} (hcol : colCount ≠ 0)
    {row : α → List BoundValue} {size : ℕ} (hsize : size ≠ 0) {xs : List α} {n : ℕ}
    {log : List DriverCall}
    (h : (conn.counting kind reports).transaction (sumOver (fun part =>
      (conn.counting kind reports).insertManyBatch sql (part.flatMap row) colCount part.length)
      (chunks size xs)) [] = (.ok n, log)) :
    n = reportedTotal reports [] log ↔
      kind.CountsMatch reports xs.length (batchCalls sql colCount row (chunks size xs)) := by
  have hparts : ∀ part ∈ chunks size xs, part ≠ [] := fun part hpart =>
    ne_nil_of_mem_chunks (Nat.pos_of_ne_zero hsize) hpart
  have hbatch : ∀ (log : List DriverCall) (part : List α), Session.Makes
      ((conn.counting kind reports).insertManyBatch sql (part.flatMap row) colCount part.length)
      log [batchCall sql colCount row part] (kind.insertManyBatchCount colCount part.length
        (reports (log ++ [batchCall sql colCount row part]))) := by
    intro log part
    have hmakes := makes_insertManyBatch (conn.counting kind reports) log sql (part.flatMap row)
      colCount part.length
    have hcounted := counted_insertManyBatch kind reports log sql
      (part.flatMap row) colCount part.length
    exact hcounted ▸ hmakes
  obtain ⟨hlog, hn⟩ := makes_transaction _ (makes_sumOver hbatch (chunks size xs) _) n log h
  rw [List.nil_append] at hlog
  have htotal : reportedTotal reports [] log = reportedTotal reports [.beginTransaction]
      (batchCalls sql colCount row (chunks size xs)) := by
    rw [hlog]
    exact reportedTotal_transaction _
  have hgiven (hkind : kind = .postgres ∨ kind = .mysql) : batchSum kind reports sql colCount row
      ([] ++ [.beginTransaction]) (chunks size xs) = xs.length := by
    rw [batchSum_given hkind hcol, flatten_chunks hsize]
  rw [ServerKind.CountsMatch.eq_def, htotal, hn]
  cases kind with
  | sqlite => exact iff_of_true (batchSum_sqlite hcol hparts _) trivial
  | postgres => exact (Eq.congr_left (hgiven (.inl rfl))).trans eq_comm
  | mysql => exact (Eq.congr_left (hgiven (.inr rfl))).trans eq_comm
  | odbc => exact (batchSum_odbc hcol hparts _).2

/-- A transaction that executes one statement after another. -/
theorem statements_count {f : α → Session ℕ} {calls : α → List DriverCall}
    {log₀ : List DriverCall} (hlog₀ : reportedTotal reports [] log₀ = 0)
    (hf : ∀ log x, Session.Makes (f x) log (calls x) (reportedTotal reports log (calls x)))
    {xs : List α} {n : ℕ} {log : List DriverCall}
    (h : conn.transaction (sumOver f xs) log₀ = (.ok n, log)) :
    n = reportedTotal reports [] log := by
  obtain ⟨hlog, hn⟩ := makes_transaction _ (makes_sumOver hf xs _) n log h
  rw [hn, hlog, reportedTotal_append, hlog₀, Nat.zero_add, List.nil_append]
  rw [sumReturned_eq fun _ _ _ => rfl, reportedTotal, reportedTotal_append]
  simp [reportedTotal, reportedBy]

/-- A statement that is bound and executed. -/
theorem counting_executeWith (params : List BoundValue) (log : List DriverCall) :
    Session.Makes ((conn.counting kind reports).executeWith params) log
      (bindCalls 0 params ++ [.executeNonQuery])
      (reportedTotal reports log (bindCalls 0 params ++ [.executeNonQuery])) := by
  have hmakes := makes_executeWith (conn.counting kind reports) log params
  have hcounted : (conn.counting kind reports).affected
      (log ++ (bindCalls 0 params ++ [.executeNonQuery])) =
        (reports (log ++ (bindCalls 0 params ++ [.executeNonQuery]))).sum := by
    rw [← List.append_assoc]
    exact counted_executeNonQuery _
  rwa [hcounted, ← reportedTotal_executeWith] at hmakes

/-- The same after a call that affects no row. -/
theorem counting_executeWith_after {c : DriverCall} (hc : ∀ log, reportedBy reports log c = 0)
    (params : List BoundValue) (log : List DriverCall) :
    Session.Makes (do call conn.driver c; (conn.counting kind reports).executeWith params) log
      (c :: (bindCalls 0 params ++ [.executeNonQuery]))
      (reportedTotal reports log (c :: (bindCalls 0 params ++ [.executeNonQuery]))) := by
  have h := (makes_call conn.driver log c).bind
    (f := fun _ => (conn.counting kind reports).executeWith params)
    (counting_executeWith params (log ++ [c]))
  rw [reportedTotal, hc, Nat.zero_add]
  exact h

end Operations

/-! ## The operations -/

namespace DbContext

variable (conn : Connection) {E K : Type} (table : TableDef E)

/-- The calls of `update_many` on its array path. -/
def updateBatches (entities : List E) (chunkSize : ℕ) : List DriverCall :=
  batchCalls (updateSql conn table) (updateOrder table).length (rowValues (updateOrder table))
    (chunks (conn.chunkSizeOr chunkSize) entities)

/-- The calls of `delete_many` on its array path. -/
def deleteBatches (toBoundValue : K → BoundValue) (ids : List K) (chunkSize : ℕ) :
    List DriverCall :=
  table.pkColumns.flatMap fun pk => batchCalls (deleteSql conn table pk) 1
    (fun id => [toBoundValue id]) (chunks (conn.chunkSizeOr chunkSize) ids)

end DbContext

section Counts

variable {conn : Connection} {kind : ServerKind} {reports : List DriverCall → List ℕ} {E K : Type}
  {table : TableDef E} {chunkSize n : ℕ} {log : List DriverCall}

theorem countsMatch_nil : kind.CountsMatch reports 0 [] := by
  cases kind <;> trivial

/-- `update_many` returns the reports' total exactly if the servers count as the driver does. -/
theorem updateMany_count {entities : List E}
    (h : DbContext.updateMany (conn.counting kind reports) table entities chunkSize [] =
      (.ok n, log)) :
    n = reportedTotal reports [] log ↔ (conn.arrayBatchInsert = true → kind.CountsMatch reports
      entities.length (DbContext.updateBatches conn table entities chunkSize)) := by
  unfold DbContext.updateMany at h
  split at h
  · rename_i hempty
    obtain ⟨rfl, rfl⟩ := makes_pure [] 0 n log h
    rw [List.isEmpty_iff] at hempty
    subst hempty
    refine iff_of_true rfl fun _ => ?_
    rw [DbContext.updateBatches, chunks_nil]
    exact countsMatch_nil
  split at h
  · injection h with hb
    contradiction
  rename_i hpk
  have hcol : (DbContext.updateOrder table).length ≠ 0 := by
    rw [DbContext.updateOrder, List.length_append]
    rw [List.isEmpty_iff, ← List.length_eq_zero_iff] at hpk
    omega
  split at h
  · rename_i harray
    have harray : conn.arrayBatchInsert = true := harray
    rw [arrays_count hcol (chunkSizeOr_ne_zero conn chunkSize) h]
    exact ⟨fun hmatch _ => hmatch, fun hmatch => hmatch harray⟩
  · rename_i harray
    have harray : ¬ conn.arrayBatchInsert = true := harray
    refine iff_of_true ?_ fun h => absurd h harray
    have hagain : ∀ (log : List DriverCall) (e : E), Session.Makes
        ((conn.counting kind reports).executeAgain (rowValues (DbContext.updateOrder table) e)) log
        _ _ := fun log e => counting_executeWith_after (fun _ => rfl) _ log
    exact statements_count rfl hagain (ok_of_call_bind h)

/-- So does `delete_many`. -/
theorem deleteMany_count {toBoundValue : K → BoundValue} {ids : List K}
    (h : DbContext.deleteMany (conn.counting kind reports) table toBoundValue ids chunkSize [] =
      (.ok n, log)) :
    n = reportedTotal reports [] log ↔ (conn.arrayBatchInsert = true → kind.CountsMatch reports
      ids.length (DbContext.deleteBatches conn table toBoundValue ids chunkSize)) := by
  unfold DbContext.deleteMany at h
  by_cases hempty : ids = []
  · subst hempty
    obtain ⟨rfl, rfl⟩ := makes_pure [] 0 n log h
    refine iff_of_true rfl fun _ => ?_
    have hbatches : DbContext.deleteBatches conn table toBoundValue [] chunkSize = [] := by
      rw [DbContext.deleteBatches, chunks_nil]
      exact List.flatMap_eq_nil_iff.mpr fun _ _ => rfl
    rw [hbatches]
    exact countsMatch_nil
  rw [if_neg (by rwa [List.isEmpty_iff])] at h
  cases hpk : table.pkColumns with
  | nil =>
    rw [hpk] at h
    injection h with hb
    contradiction
  | cons pk rest =>
    cases rest with
    | cons _ _ =>
      rw [hpk] at h
      injection h with hb
      contradiction
    | nil =>
      rw [hpk] at h
      have hbatches : DbContext.deleteBatches conn table toBoundValue ids chunkSize =
          batchCalls (DbContext.deleteSql conn table pk) 1 (fun id => [toBoundValue id])
            (chunks (conn.chunkSizeOr chunkSize) ids) := by
        rw [DbContext.deleteBatches, hpk, List.flatMap_singleton]
      simp only at h
      split at h
      · rename_i harray
        have harray : conn.arrayBatchInsert = true := harray
        simp only [List.map_eq_flatMap] at h
        rw [arrays_count Nat.one_ne_zero (chunkSizeOr_ne_zero conn chunkSize) h, hbatches]
        exact ⟨fun hmatch _ => hmatch, fun hmatch => hmatch harray⟩
      · rename_i harray
        have harray : ¬ conn.arrayBatchInsert = true := harray
        refine iff_of_true ?_ fun h => absurd h harray
        exact statements_count rfl
          (fun log part => counting_executeWith_after (fun _ => rfl) _ _) h

end Counts

/-- The number that `update_many` or `delete_many` returns is the number of rows that their
statements affected if, and only if, there is no array path or the driver counts truly on it. -/
theorem row_counts (conn : Connection) (kind : ServerKind) (reports : List DriverCall → List ℕ)
    {E K : Type} (table : TableDef E) (chunkSize : ℕ) :
    (∀ (entities : List E) (n : ℕ) (log : List DriverCall),
      DbContext.updateMany (conn.counting kind reports) table entities chunkSize [] =
        (.ok n, log) →
      (n = reportedTotal reports [] log ↔ (conn.arrayBatchInsert = true → kind.CountsMatch reports
        entities.length (DbContext.updateBatches conn table entities chunkSize)))) ∧
    ∀ (toBoundValue : K → BoundValue) (ids : List K) (n : ℕ) (log : List DriverCall),
      DbContext.deleteMany (conn.counting kind reports) table toBoundValue ids chunkSize [] =
        (.ok n, log) →
      (n = reportedTotal reports [] log ↔ (conn.arrayBatchInsert = true → kind.CountsMatch reports
        ids.length (DbContext.deleteBatches conn table toBoundValue ids chunkSize))) :=
  ⟨fun _ _ _ => updateMany_count, fun _ _ _ _ => deleteMany_count⟩

/-- PostgreSQL reports no row for a key that is missing, and the array path counts it. -/
def missingKey : Connection where
  dialect := .postgres
  arrayBatchInsert := true
  defaultBatchChunkSize := 1000
  driver := .accepting
  affected := fun _ => 0
  firstInt64 := fun _ => none

/-- A table of keys. -/
def keyedTable : TableDef Int64 where
  name := "t"
  columns := [{ name := "id", isPrimaryKey := true, value := .int64 }]

theorem deleteMany_missingKey : ∃ log, DbContext.deleteMany
    (missingKey.counting .postgres fun _ => [0]) keyedTable .int64 [7] 0 [] = (.ok 1, log) ∧
    reportedTotal (fun _ => [0]) [] log = 0 :=
  ⟨_, rfl, rfl⟩

/-- The array path counts a key that no row has. -/
theorem not_forall_deleteMany_count : ¬ ∀ (conn : Connection) (kind : ServerKind)
    (reports : List DriverCall → List ℕ) (table : TableDef Int64) (ids : List Int64)
    (chunkSize n : ℕ) (log : List DriverCall),
    DbContext.deleteMany (conn.counting kind reports) table .int64 ids chunkSize [] =
      (.ok n, log) → n = reportedTotal reports [] log := by
  intro h
  obtain ⟨log, hrun, hzero⟩ := deleteMany_missingKey
  have hone := h _ _ _ _ _ _ _ _ hrun
  rw [hzero] at hone
  exact Nat.one_ne_zero hone

/-- The values of a batch. -/
def batchValues : DriverCall → List BoundValue
  | .insertManyBatch _ flat _ _ => flat
  | _ => []

/-- A server whose table holds the keys 3 and 7 reports one row for the first statement that
deletes one of them, and none for the others. -/
def deletesStored (log : List DriverCall) : List ℕ :=
  let before := log.dropLast.flatMap batchValues
  let values := (log.getLast?.map batchValues).getD []
  (List.range values.length).map fun j =>
    if values[j]?.any (fun v => [.int64 3, .int64 7].contains v &&
      !(before ++ values.take j).contains v) then 1 else 0

/-- Four keys in batches of three, of which one is there twice and one is missing : the array
path counts four rows, and the statements affect two. -/
theorem row_counts_missingKey : ∃ log, DbContext.deleteMany
    (missingKey.counting .postgres deletesStored) keyedTable .int64 [7, 3, 7, 5] 3 [] =
      (.ok 4, log) ∧ reportedTotal deletesStored [] log = 2 ∧
    ¬ (missingKey.arrayBatchInsert = true → ServerKind.postgres.CountsMatch deletesStored 4
      (DbContext.deleteBatches missingKey keyedTable .int64 [7, 3, 7, 5] 3)) := by
  refine ⟨_, rfl, rfl, fun hmatch => ?_⟩
  have hcounts := ((row_counts missingKey .postgres deletesStored keyedTable 3).2 .int64
    [7, 3, 7, 5] 4 _ rfl).mpr hmatch
  exact absurd hcounts (by decide)

end CppLinq
