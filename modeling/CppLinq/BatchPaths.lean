import CppLinq.BatchAlignment
import CppLinq.CopyText
import CppLinq.MysqlLiterals
import Mathlib.Data.List.TakeWhile

/-!
# The fast paths of batches

`insert_many_batch` of `IConnection` executes the statement it is given once for each row. The
PostgreSQL driver first tries COPY with what stands between `INSERT INTO ` and ` VALUES` in the
text, and the MySQL driver sends statements for many rows that begin with the text up to
` VALUES` and list the literals of the values. Both search the text for these marks, and leave the
rest of it out.

A server is what it answers : `read` is what it sees in the text of a statement, COPY and a
statement for many rows load the rows that are read in what is sent, all or none. Whether a fast
path has the effect of the loop on every server depends on the text, on the values, on whether the
server takes the COPY, on whether it refuses a row, and on whether it takes a literal as it takes
the value (`fast_paths_iff`).
-/

namespace CppLinq

/-! ## Rows one after another, and all or none -/

section Loading

variable {ρ σ : Type}

/-- What a step leaves, where it may be refused. -/
def attempt (step : σ → Option σ) (s : σ) : Except σ σ :=
  match step s with
  | some s' => .ok s'
  | none => .error s

/-- Rows one after another, up to the first that is refused. -/
def stepEach (step : ρ → σ → Except σ σ) : List ρ → σ → Except σ σ
  | [], s => .ok s
  | r :: rows, s =>
    match step r s with
    | .ok s' => stepEach step rows s'
    | .error s' => .error s'

/-- All rows or none. -/
def loadAll (load : ρ → σ → Option σ) (rows : List ρ) (s : σ) : Except σ σ :=
  match stepEach (fun r => attempt (load r)) rows s with
  | .ok s' => .ok s'
  | .error _ => .error s

/-- A loop over two lists is two loops. -/
theorem stepEach_append (step : ρ → σ → Except σ σ) (rows rows' : List ρ) (s : σ) :
    stepEach step (rows ++ rows') s =
      match stepEach step rows s with
      | .ok s' => stepEach step rows' s'
      | .error s' => .error s' := by
  induction rows generalizing s with
  | nil => rfl
  | cons r rows ih =>
    rw [List.cons_append, stepEach, stepEach]
    cases step r s with
    | ok s' => exact ih s'
    | error s' => rfl

theorem attempt_of_isSome {step : σ → Option σ} {s : σ} (h : (step s).isSome = true) :
    ∃ s', attempt step s = .ok s' := by
  obtain ⟨s', hs⟩ := Option.isSome_iff_exists.mp h
  exact ⟨s', by rw [attempt, hs]⟩

/-- Where no row is refused, all are loaded. -/
theorem stepEach_of_isSome {load : ρ → σ → Option σ} (h : ∀ r s, (load r s).isSome = true)
    (rows : List ρ) (s : σ) : ∃ s', stepEach (fun r => attempt (load r)) rows s = .ok s' := by
  induction rows generalizing s with
  | nil => exact ⟨s, rfl⟩
  | cons r rows ih =>
    obtain ⟨s', hs⟩ := attempt_of_isSome (h r s)
    rw [stepEach, hs]
    exact ih s'

/-- Loops that do the same with every row do the same. -/
theorem stepEach_congr {step step' : ρ → σ → Except σ σ} {rows : List ρ}
    (h : ∀ r ∈ rows, step r = step' r) (s : σ) : stepEach step rows s = stepEach step' rows s := by
  induction rows generalizing s with
  | nil => rfl
  | cons r rows ih =>
    rw [stepEach, stepEach, h r List.mem_cons_self]
    cases step' r s with
    | ok s' => exact ih (fun r hr => h r (List.mem_cons_of_mem _ hr)) s'
    | error s' => rfl

theorem stepEach_map {ρ' : Type} (f : ρ → ρ') (step : ρ' → σ → Except σ σ) (rows : List ρ)
    (s : σ) : stepEach step (rows.map f) s = stepEach (fun r => step (f r)) rows s := by
  induction rows generalizing s with
  | nil => rfl
  | cons r rows ih =>
    rw [List.map_cons, stepEach, stepEach]
    cases step (f r) s with
    | ok s' => exact ih s'
    | error s' => rfl

theorem loadAll_map {ρ' : Type} (f : ρ → ρ') (load : ρ' → σ → Option σ) (rows : List ρ) (s : σ) :
    loadAll load (rows.map f) s = loadAll (fun r => load (f r)) rows s := by
  rw [loadAll, loadAll, stepEach_map]

theorem loadAll_congr {load load' : ρ → σ → Option σ} {rows : List ρ}
    (h : ∀ r ∈ rows, load r = load' r) (s : σ) : loadAll load rows s = loadAll load' rows s := by
  rw [loadAll, loadAll, stepEach_congr fun r hr => congrArg attempt (h r hr)]

/-- Lists of rows one after another. -/
theorem stepEach_flatten (step : ρ → σ → Except σ σ) (parts : List (List ρ)) (s : σ) :
    stepEach (stepEach step) parts s = stepEach step parts.flatten s := by
  induction parts generalizing s with
  | nil => rfl
  | cons part parts ih =>
    rw [List.flatten_cons, stepEach_append, stepEach]
    cases stepEach step part s with
    | ok s' => exact ih s'
    | error s' => rfl

/-- A single row is loaded or not, and so are rows of which none is refused. -/
theorem loadAll_eq_stepEach {load : ρ → σ → Option σ} {rows : List ρ}
    (h : rows.length ≤ 1 ∨ ∀ r s, (load r s).isSome = true) (s : σ) :
    loadAll load rows s = stepEach (fun r => attempt (load r)) rows s := by
  rcases h with hlength | hsome
  · match rows, hlength with
    | [], _ => rfl
    | [r], _ =>
      rw [loadAll, stepEach, attempt]
      cases load r s <;> rfl
  · obtain ⟨s', hs⟩ := stepEach_of_isSome hsome rows s
    rw [loadAll, hs]

/-- A load that counts. -/
theorem stepEach_count (rows : List ρ) (n : ℕ) :
    stepEach (fun _ : ρ => attempt fun n => some (n + 1)) rows n = .ok (n + rows.length) := by
  induction rows generalizing n with
  | nil => rfl
  | cons r rows ih =>
    have hstep : stepEach (fun _ : ρ => attempt fun n => some (n + 1)) (r :: rows) n =
        stepEach (fun _ : ρ => attempt fun n => some (n + 1)) rows (n + 1) := rfl
    rw [hstep, ih, List.length_cons, Nat.add_assoc, Nat.add_comm 1]

/-- A load that changes nothing. -/
theorem stepEach_some (rows : List ρ) (s : σ) :
    stepEach (fun _ : ρ => attempt some) rows s = .ok s := by
  induction rows with
  | nil => rfl
  | cons r rows ih => exact ih

/-- Statements that count the rows of one of them. -/
noncomputable def countRows {τ : Type} (t t' : τ) (_ : ρ) (n : ℕ) : Option ℕ :=
  open Classical in if t' = t then some (n + 1) else some n

/-- A recording server counts the rows of its table only. -/
theorem countRows_self {τ : Type} (t : τ) : countRows t t = fun (_ : ρ) n => some (n + 1) := by
  funext r n
  exact if_pos rfl

theorem countRows_of_ne {τ : Type} {t t' : τ} (h : t' ≠ t) :
    countRows t t' = fun (_ : ρ) => some := by
  funext r n
  exact if_neg h

theorem isSome_countRows {τ : Type} (t t' : τ) (r : ρ) (n : ℕ) :
    (countRows t t' r n).isSome = true := by
  rw [countRows]
  split <;> rfl

/-- A load that records rows. -/
theorem stepEach_record {β : Type} (f : ρ → β) (rows : List ρ) (s : List β) :
    stepEach (fun r => attempt fun s => some (s ++ [f r])) rows s = .ok (s ++ rows.map f) := by
  induction rows generalizing s with
  | nil => exact congrArg _ (List.append_nil s).symm
  | cons r rows ih =>
    have hstep : stepEach (fun r => attempt fun s => some (s ++ [f r])) (r :: rows) s =
        stepEach (fun r => attempt fun s => some (s ++ [f r])) rows (s ++ [f r]) := rfl
    rw [hstep, ih, List.append_assoc, List.map_cons, List.singleton_append]

/-- Record a list, where there is one. -/
def recordList {β : Type} : Option (List β) → List β → Except (List β) (List β)
  | some xs, s => .ok (s ++ xs)
  | none, s => .error s

/-- Steps that record lists, where all are taken. -/
theorem of_stepEach_recordList {β : Type} (f : ρ → Option (List β)) {rows : List ρ}
    {s s' : List β} (h : stepEach (fun r => recordList (f r)) rows s = .ok s') :
    (∀ r ∈ rows, (f r).isSome = true) ∧ s' = s ++ rows.flatMap fun r => (f r).getD [] := by
  induction rows generalizing s with
  | nil => exact ⟨nofun, (Except.ok.inj h).symm.trans (List.append_nil s).symm⟩
  | cons r rows ih =>
    rw [stepEach] at h
    cases hr : f r with
    | none =>
      rw [hr] at h
      contradiction
    | some xs =>
      rw [hr] at h
      obtain ⟨hsome, heq⟩ := ih h
      refine ⟨List.forall_mem_cons.mpr ⟨by rw [hr]; rfl, hsome⟩, ?_⟩
      rw [heq, List.flatMap_cons, hr, List.append_assoc]
      rfl

/-- A load that takes one row. -/
def loadOne : Bool → Option Bool
  | false => some true
  | true => none

theorem stepEach_loadOne {rows : List ρ} (h : 2 ≤ rows.length) :
    stepEach (fun _ : ρ => attempt loadOne) rows false = .error true := by
  match rows, h with
  | _ :: _ :: _, _ => rfl

end Loading

/-! ## Texts -/

/-- Where a pattern first stands in a text. -/
def find (pattern : List Char) : List Char → Option ℕ
  | [] => if pattern.isEmpty then some 0 else none
  | c :: cs =>
    if pattern.isPrefixOf (c :: cs) then some 0 else (find pattern cs).map (· + 1)

/-- What stands between `INSERT INTO ` and ` VALUES`, where COPY is tried. -/
def copyTarget (sql : List Char) : Option (List Char) := do
  let insertPos ← find "INSERT INTO ".toList sql
  let valuesPos ← find " VALUES".toList sql
  if valuesPos > insertPos + 12 then
    some ((sql.drop (insertPos + 12)).take (valuesPos - (insertPos + 12)))
  else none

/-- The text up to ` VALUES`, and a blank. -/
def valuesPrefix (sql : List Char) : Option (List Char) :=
  (find " VALUES".toList sql).map fun valuesPos => sql.take (valuesPos + 7) ++ [' ']

/-- `(?, …, ?)`. -/
def marks (n : ℕ) : List Char :=
  '(' :: ([',', ' '].intercalate (List.replicate n ['?']) ++ [')'])

/-- `INSERT INTO <target> VALUES (?, …, ?)`. -/
def plainInsert (target : List Char) (n : ℕ) : List Char :=
  "INSERT INTO ".toList ++ target ++ " VALUES ".toList ++ marks n

/-! ## The loop of `IConnection` -/

/-- `insert_many_batch` of `IConnection`, where a row is executed by a step. -/
def insertManyEach {σ : Type} (step : List BoundValue → σ → Except σ σ)
    (flatParams : List BoundValue) (colCount rowCount : ℕ) (s : σ) : Except σ σ :=
  if rowCount = 0 ∨ colCount = 0 then .ok s
  else if flatParams.length / colCount < rowCount then .error s
  else stepEach step (batchRows flatParams colCount rowCount) s

/-! ## PostgreSQL -/

/-- `c_str()`, as a function of C reads it : up to the first zero. -/
def cString (cs : List Char) : List Char :=
  cs.takeWhile (· ≠ Char.ofNat 0)

section Pg

variable {τ σ : Type}

/-- What a PostgreSQL server answers. -/
structure PgServer (τ σ : Type) where
  /-- A statement executed with the texts of its parameters, unless it is refused. -/
  execute : τ → List (Option (List Char)) → σ → Option σ
  /-- Whether `COPY target FROM STDIN` is taken. -/
  takesCopy : List Char → σ → Bool

/-- What PostgreSQL says of a statement. -/
inductive PgStatus
  | idle | inTransaction | aborted
  deriving DecidableEq

/-- The tables as a connection has them : with no transaction open, in a transaction with the
tables it would go back to, or in one that is aborted. -/
inductive PgTables (σ : Type)
  | idle (tables : σ)
  | inTransaction (saved tables : σ)
  | aborted (saved : σ)
  deriving DecidableEq

/-- The status of a run of the statements. -/
def PgTables.status : PgTables σ → PgStatus
  | .idle _ => .idle
  | .inTransaction _ _ => .inTransaction
  | .aborted _ => .aborted

/-- Statements up to the first that is refused. It aborts an open transaction, and in an
aborted one every statement is refused. -/
def PgTables.transact (run : σ → Except σ σ) : PgTables σ → Except (PgTables σ) (PgTables σ)
  | .idle s =>
    match run s with
    | .ok s' => .ok (.idle s')
    | .error s' => .error (.idle s')
  | .inTransaction saved s =>
    match run s with
    | .ok s' => .ok (.inTransaction saved s')
    | .error _ => .error (.aborted saved)
  | .aborted saved => .error (.aborted saved)

namespace PgServer

variable (read : List Char → τ) (doubleText : Double → List Char) (server : PgServer τ σ)

/-- Execute the statement for a row, whose texts are passed by `c_str()`. -/
def executeRow (sql : List Char) (row : List BoundValue) :
    PgTables σ → Except (PgTables σ) (PgTables σ) :=
  PgTables.transact
    (attempt (server.execute (read sql) (row.map fun v => (bindText doubleText v).map cString)))

/-- COPY loads the rows that are read from what was sent of the buffers, as plain inserts of them
do. It refuses a zero. -/
def loadCopied (target : List Char) (buffers : List (List Char)) (s : σ) : Except σ σ :=
  let data := (buffers.map putCopyData).flatten
  if Char.ofNat 0 ∈ data then .error s
  else
    match readCopy data with
    | some rows =>
      loadAll (fun row => server.execute (read (plainInsert target row.length)) row) rows s
    | none => .error s

/-- `PgConnection::insert_many_batch` : a `COPY`, or the loop over the rows. -/
def insertManyBatch (sql : List Char) (flatParams : List BoundValue) (colCount rowCount : ℕ)
    (st : PgTables σ) : Except (PgTables σ) (PgTables σ) :=
  let fallback := stepEach (server.executeRow read doubleText sql)
    (batchRows flatParams colCount rowCount)
  if rowCount = 0 ∨ colCount = 0 then .ok st
  else
    match copyTarget sql with
    | none => fallback st
    | some target =>
      match st.transact (attempt fun s => if server.takesCopy target s then some s else none) with
      | .ok st' => st'.transact (server.loadCopied read target
          (copyBuffers doubleText flushes flatParams colCount rowCount))
      | .error st' => fallback st'

end PgServer

end Pg

/-! ## MySQL -/

/-- Where a place in a text of MySQL is. -/
inductive MysqlPlace
  | code
  | quoted (quote : Char)
  | escaped (quote : Char)
  | lineComment
  | opening
  | blockComment
  | closing
  /-- Behind a statement. -/
  | ended
  deriving DecidableEq

/-- Where the end of a text is. -/
def placeAfter : MysqlPlace → List Char → MysqlPlace
  | place, [] => place
  | .code, c :: cs =>
    if c = '\'' ∨ c = '"' ∨ c = '`' then placeAfter (.quoted c) cs
    else if c = ';' then placeAfter .ended cs
    else if c = '#' then placeAfter .lineComment cs
    else if c = '-' ∧ cs.head? = some '-' ∧ cs.tail.head?.all isSpace then
      placeAfter .lineComment cs
    else if c = '/' ∧ cs.head? = some '*' then placeAfter .opening cs
    else placeAfter .code cs
  | .quoted quote, c :: cs =>
    if c = quote then placeAfter .code cs
    else if c = '\\' ∧ quote ≠ '`' then placeAfter (.escaped quote) cs
    else placeAfter (.quoted quote) cs
  | .escaped quote, _ :: cs => placeAfter (.quoted quote) cs
  | .lineComment, c :: cs => placeAfter (if c = '\n' then .code else .lineComment) cs
  | .opening, _ :: cs => placeAfter .blockComment cs
  | .blockComment, c :: cs =>
    placeAfter (if c = '*' ∧ cs.head? = some '/' then .closing else .blockComment) cs
  | .closing, _ :: cs => placeAfter .code cs
  | .ended, _ :: cs => placeAfter .ended cs

section Mysql

variable {τ σ : Type}

/-- What a MySQL server answers. -/
structure MysqlServer (τ σ : Type) where
  /-- A prepared statement executed with the values of its parameters, unless it is refused. -/
  execute : τ → List MysqlValue → σ → Option σ
  /-- Any text that does not list rows of literals behind the beginning of a statement. -/
  query : List Char → σ → Except σ σ

/-- The rows of a statement. -/
def batchChunk : ℕ := 2000

namespace MysqlServer

variable (read : List Char → τ) (readDouble : List Char → Double)
  (doubleText : Double → List Char) (server : MysqlServer τ σ)

/-- Execute the statement for a row. -/
def executeRow (sql : List Char) (row : List BoundValue) : σ → Except σ σ :=
  attempt (server.execute (read sql) (row.map mysqlBind))

/-- A statement that begins with a text and lists many rows. The rows that the server reads in
the list are loaded as rows of their own would be. -/
def executeMany (start : List Char) (rows : List (List BoundValue)) (s : σ) : Except σ σ :=
  let list := literalTuples doubleText rows
  match if placeAfter .code start = .code then readTuples readDouble list else none with
  | some rows => loadAll (fun row => server.execute (read (start ++ marks row.length)) row) rows s
  | none => server.query (start ++ list) s

/-- `MysqlConnection::insert_many_batch` : rows of literals, or the loop over the rows. -/
def insertManyBatch (sql : List Char) (flatParams : List BoundValue) (colCount rowCount : ℕ)
    (s : σ) : Except σ σ :=
  let rows := batchRows flatParams colCount rowCount
  if rowCount = 0 ∨ colCount = 0 then .ok s
  else
    match valuesPrefix sql with
    | none => stepEach (server.executeRow read sql) rows s
    | some start =>
      stepEach (server.executeMany read readDouble doubleText start) (chunks batchChunk rows) s

end MysqlServer

end Mysql

/-! ## Equal effects -/

section PgEffects

variable {τ σ : Type} {read : List Char → τ} {doubleText : Double → List Char}
  {server : PgServer τ σ} {sql target : List Char} {flatParams : List BoundValue}
  {colCount rowCount : ℕ}

/-- Statements one after another, in a transaction or not. -/
theorem stepEach_transact {ρ : Type} (step : ρ → σ → Except σ σ) {rows : List ρ} (hrows : rows ≠ [])
    (st : PgTables σ) :
    stepEach (fun r => PgTables.transact (step r)) rows st = st.transact (stepEach step rows) := by
  induction rows generalizing st with
  | nil => contradiction
  | cons r rows ih =>
    rw [stepEach]
    cases st with
    | idle s =>
      rw [PgTables.transact, PgTables.transact, stepEach]
      cases step r s with
      | error s' => rfl
      | ok s' =>
        by_cases hrest : rows = []
        · subst hrest
          rfl
        · exact ih hrest (.idle s')
    | inTransaction saved s =>
      rw [PgTables.transact, PgTables.transact, stepEach]
      cases step r s with
      | error s' => rfl
      | ok s' =>
        by_cases hrest : rows = []
        · subst hrest
          rfl
        · exact ih hrest (.inTransaction saved s')
    | aborted saved => rfl

/-- A row, as a server gets it. -/
def textsOf (doubleText : Double → List Char) (row : List BoundValue) : List (Option (List Char)) :=
  row.map fun v => (bindText doubleText v).map cString

/-- The rows of a batch, as a server gets them. -/
abbrev rowTexts (doubleText : Double → List Char) (flatParams : List BoundValue)
    (colCount rowCount : ℕ) : List (List (Option (List Char))) :=
  (batchRows flatParams colCount rowCount).map (textsOf doubleText)

/-- The loop executes the statement for the texts of each row. -/
theorem stepEach_executeRow (hrow : rowCount ≠ 0) (st : PgTables σ) :
    stepEach (server.executeRow read doubleText sql) (batchRows flatParams colCount rowCount) st =
      st.transact (stepEach (fun row => attempt (server.execute (read sql) row))
        (rowTexts doubleText flatParams colCount rowCount)) := by
  have hne : batchRows flatParams colCount rowCount ≠ [] := by
    rw [← List.length_pos_iff, length_batchRows]
    exact Nat.pos_of_ne_zero hrow
  have hstep := stepEach_transact
    (fun row => attempt (server.execute (read sql) (textsOf doubleText row))) hne st
  refine hstep.trans (congrArg (fun run => st.transact run) (funext fun s => ?_))
  exact (stepEach_map (textsOf doubleText) (fun row => attempt (server.execute (read sql) row)) _
    s).symm

/-- A batch that COPY gets as it is : no text has a zero, and no buffer has a size that an `int`
cannot hold. -/
def CopiesWhole (doubleText : Double → List Char) (flatParams : List BoundValue)
    (colCount rowCount : ℕ) : Prop :=
  (¬ ∃ row ∈ batchRows flatParams colCount rowCount, ∃ v ∈ row,
    ∃ text ∈ bindText doubleText v, Char.ofNat 0 ∈ text) ∧
  ∀ buffer ∈ copyBuffers doubleText flushes flatParams colCount rowCount, buffer.length < 2 ^ 31

theorem cString_of_notMem {cs : List Char} (h : Char.ofNat 0 ∉ cs) : cString cs = cs :=
  List.takeWhile_eq_self_iff.mpr fun _ hc => decide_eq_true fun heq => h (heq ▸ hc)

/-- COPY loads the rows of the matrix. -/
theorem loadCopied_eq (hdouble : ∀ v, Plain (doubleText v))
    (hlength : flatParams.length = rowCount * colCount) (hcol : colCount ≠ 0)
    (hwhole : CopiesWhole doubleText flatParams colCount rowCount) (s : σ) :
    server.loadCopied read target (copyBuffers doubleText flushes flatParams colCount rowCount) s =
      loadAll (server.execute (read (plainInsert target colCount)))
        (rowTexts doubleText flatParams colCount rowCount) s := by
  obtain ⟨hzero, hsizes⟩ := hwhole
  have hsent : (copyBuffers doubleText flushes flatParams colCount rowCount).map putCopyData =
      copyBuffers doubleText flushes flatParams colCount rowCount := map_putCopyData hsizes
  have htexts : (batchRows flatParams colCount rowCount).map
      (fun row => row.map (bindText doubleText)) =
        rowTexts doubleText flatParams colCount rowCount := by
    refine List.map_congr_left fun row hrow => List.map_congr_left fun v hv => ?_
    cases htext : bindText doubleText v with
    | none => rfl
    | some text =>
      rw [Option.map_some,
        cString_of_notMem fun hmem => hzero ⟨row, hrow, v, hv, text, htext, hmem⟩]
  rw [PgServer.loadCopied, hsent, readCopy_copyBuffers hdouble flushes hlength
    (Nat.pos_of_ne_zero hcol), htexts]
  simp only
  rw [if_neg (by rwa [flatten_copyBuffers, nul_mem_copyText])]
  refine loadAll_congr (fun row hrow => ?_) s
  obtain ⟨row, hmem, rfl⟩ := List.mem_map.mp hrow
  rw [textsOf, List.length_map, length_of_mem_batchRows hlength hmem]

/-- The loop of `IConnection` on a full matrix. -/
theorem insertManyEach_eq {S : Type} (step : List BoundValue → S → Except S S)
    (hlength : flatParams.length = rowCount * colCount) (hrow : rowCount ≠ 0) (hcol : colCount ≠ 0)
    (s : S) : insertManyEach step flatParams colCount rowCount s =
      stepEach step (batchRows flatParams colCount rowCount) s := by
  have hdiv : ¬ flatParams.length / colCount < rowCount := by
    rw [hlength, Nat.mul_div_cancel _ (Nat.pos_of_ne_zero hcol)]
    exact Nat.lt_irrefl _
  rw [insertManyEach, if_neg (by tauto), if_neg hdiv]

/-- In a transaction it does not matter which rows came before the refused one. -/
theorem transact_loadAll {ρ : Type} (load : ρ → σ → Option σ) (rows : List ρ) (saved s : σ) :
    (PgTables.inTransaction saved s).transact (loadAll load rows) =
      (PgTables.inTransaction saved s).transact (stepEach (fun r => attempt (load r)) rows) := by
  rw [PgTables.transact, PgTables.transact, loadAll]
  cases stepEach (fun r => attempt (load r)) rows s <;> rfl

/-- The two effects where COPY is tried. -/
theorem insertManyBatch_of_target (htarget : copyTarget sql = some target) (hrow : rowCount ≠ 0)
    (hcol : colCount ≠ 0) (st : PgTables σ) :
    server.insertManyBatch read doubleText sql flatParams colCount rowCount st =
      (match st.transact (attempt fun s => if server.takesCopy target s then some s else none) with
      | .ok st' => st'.transact (server.loadCopied read target
          (copyBuffers doubleText flushes flatParams colCount rowCount))
      | .error st' => st'.transact (stepEach (fun row => attempt (server.execute (read sql) row))
          (rowTexts doubleText flatParams colCount rowCount))) := by
  rw [PgServer.insertManyBatch, if_neg (by tauto), htarget]
  simp only [stepEach_executeRow hrow]

/-- The loop of the base class, on PostgreSQL. -/
theorem insertManyEach_executeRow (hlength : flatParams.length = rowCount * colCount)
    (hrow : rowCount ≠ 0) (hcol : colCount ≠ 0) (st : PgTables σ) :
    insertManyEach (server.executeRow read doubleText sql) flatParams colCount rowCount st =
      st.transact (stepEach (fun row => attempt (server.execute (read sql) row))
        (rowTexts doubleText flatParams colCount rowCount)) := by
  rw [insertManyEach_eq _ hlength hrow hcol, stepEach_executeRow hrow]

/-- When the fast path of PostgreSQL has the effect of the loop, on servers that take every COPY
(`copies`) or refuse no row (`accepts`) or both or neither. -/
def PgPathFits (read : List Char → τ) (doubleText : Double → List Char) (copies accepts : Bool)
    (status : PgStatus) (sql : List Char) (flatParams : List BoundValue)
    (colCount rowCount : ℕ) : Prop :=
  rowCount = 0 ∨ colCount = 0 ∨ status = .aborted ∨ ∀ target, copyTarget sql = some target →
    read sql = read (plainInsert target colCount) ∧
    CopiesWhole doubleText flatParams colCount rowCount ∧
    (status = .idle → rowCount ≤ 1 ∨ accepts = true) ∧
    (status = .inTransaction → copies = true)

/-- A COPY that is taken changes nothing yet. -/
theorem transact_takesCopy {st : PgTables σ} (hst : st.status ≠ .aborted)
    (h : ∀ s, server.takesCopy target s = true) :
    st.transact (attempt fun s => if server.takesCopy target s then some s else none) =
      .ok st := by
  cases st with
  | aborted saved => contradiction
  | idle s => simp [PgTables.transact, attempt, h]
  | inTransaction saved s => simp [PgTables.transact, attempt, h]

/-- Where the rows fit, `COPY` leaves the tables that the loop leaves. -/
theorem insertManyBatch_eq_of_fits {copies accepts : Bool} {st : PgTables σ}
    (hdouble : ∀ v, Plain (doubleText v)) (hlength : flatParams.length = rowCount * colCount)
    (hcopies : copies = true → ∀ target s, server.takesCopy target s = true)
    (haccepts : accepts = true → ∀ t row s, (server.execute t row s).isSome = true)
    (hfits : PgPathFits read doubleText copies accepts st.status sql flatParams colCount rowCount) :
    server.insertManyBatch read doubleText sql flatParams colCount rowCount st =
      insertManyEach (server.executeRow read doubleText sql) flatParams colCount rowCount st := by
  by_cases hzero : rowCount = 0 ∨ colCount = 0
  · rw [PgServer.insertManyBatch, insertManyEach, if_pos hzero, if_pos hzero]
  obtain ⟨hrow, hcol⟩ := not_or.mp hzero
  cases htarget : copyTarget sql with
  | none =>
    rw [PgServer.insertManyBatch, if_neg hzero, htarget, insertManyEach_eq _ hlength hrow hcol]
  | some target =>
    rw [insertManyBatch_of_target htarget hrow hcol, insertManyEach_executeRow hlength hrow hcol]
    cases st with
    | aborted saved => rfl
    | idle s =>
      obtain ⟨hread, hwhole, hidle, -⟩ := ((hfits.resolve_left hrow).resolve_left hcol).resolve_left
        PgStatus.noConfusion target htarget
      by_cases htakes : server.takesCopy target s = true
      · have hunit : loadAll (server.execute (read sql))
            (rowTexts doubleText flatParams colCount rowCount) s = _ := loadAll_eq_stepEach
          ((hidle rfl).imp (fun hone => by rwa [List.length_map, length_batchRows])
            fun h => haccepts h _) s
        have hcopy : (PgTables.idle s).transact
            (attempt fun s => if server.takesCopy target s then some s else none) =
              .ok (.idle s) := by
          simp [PgTables.transact, attempt, htakes]
        rw [hcopy]
        simp only [PgTables.transact, loadCopied_eq hdouble hlength hcol hwhole, ← hread, hunit]
      · simp only [PgTables.transact, attempt, htakes]
        rfl
    | inTransaction saved s =>
      obtain ⟨hread, hwhole, -, hopen⟩ := ((hfits.resolve_left hrow).resolve_left hcol).resolve_left
        PgStatus.noConfusion target htarget
      have hcopied : server.loadCopied read target
          (copyBuffers doubleText flushes flatParams colCount rowCount) = _ :=
        funext (loadCopied_eq hdouble hlength hcol hwhole)
      rw [transact_takesCopy PgStatus.noConfusion (hcopies (hopen rfl) target), hread]
      simp only [hcopied]
      exact transact_loadAll _ _ _ _

/-- Tables of a status. -/
def PgStatus.tables (s : σ) : PgStatus → PgTables σ
  | .idle => .idle s
  | .inTransaction => .inTransaction s s
  | .aborted => .aborted s

theorem status_tables (status : PgStatus) (s : σ) : (status.tables s).status = status := by
  cases status <;> rfl

end PgEffects

section PgServers

variable {τ : Type} {read : List Char → τ} {doubleText : Double → List Char}
  {sql target : List Char} {flatParams : List BoundValue} {colCount rowCount : ℕ}

/-- A server that counts the rows of one statement. -/
noncomputable def tallyServer (t : τ) : PgServer τ ℕ where
  execute := countRows t
  takesCopy _ _ := true

/-- A server that takes one row, and every COPY. -/
def oneRowServer : PgServer τ Bool where
  execute _ _ := loadOne
  takesCopy _ _ := true

/-- A server that refuses every COPY. -/
def noCopyServer : PgServer τ Unit where
  execute _ _ := some
  takesCopy _ _ := false

/-- A server that counts all rows. -/
def countServer : PgServer τ ℕ where
  execute _ _ n := some (n + 1)
  takesCopy _ _ := true

/-- The loop of a counting server. -/
theorem stepEach_rowTexts {t : τ} {server : PgServer τ ℕ}
    (hcounts : server.execute t = fun _ n => some (n + 1)) :
    stepEach (fun row => attempt (server.execute t row))
      (rowTexts doubleText flatParams colCount rowCount) 0 = .ok rowCount := by
  rw [hcounts, stepEach_count, List.length_map, length_batchRows, Nat.zero_add]

/-- Where the loop counts all rows and the COPY fewer, their effects differ. -/
theorem insertManyBatch_ne_of_lt {server : PgServer τ ℕ} (hrow : rowCount ≠ 0) (hcol : colCount ≠ 0)
    (hlength : flatParams.length = rowCount * colCount) (htarget : copyTarget sql = some target)
    (htakes : ∀ s, server.takesCopy target s = true)
    (hcounts : server.execute (read sql) = fun _ n => some (n + 1))
    (hfewer : ∀ n, server.loadCopied read target
      (copyBuffers doubleText flushes flatParams colCount rowCount) 0 = .ok n → n < rowCount)
    {status : PgStatus} (hstatus : status ≠ .aborted) :
    server.insertManyBatch read doubleText sql flatParams colCount rowCount (status.tables 0) ≠
      insertManyEach (server.executeRow read doubleText sql) flatParams colCount rowCount
        (status.tables 0) := by
  have htables : (status.tables 0).status ≠ .aborted := by rwa [status_tables]
  have hloop := @stepEach_rowTexts _ doubleText flatParams colCount rowCount _ _ hcounts
  rw [insertManyBatch_of_target htarget hrow hcol, transact_takesCopy htables htakes,
    insertManyEach_executeRow hlength hrow hcol]
  simp only
  intro h
  cases status with
  | aborted => contradiction
  | idle =>
    simp only [PgStatus.tables, PgTables.transact, hloop] at h
    split at h
    · rename_i n hn
      cases h
      exact absurd (hfewer _ hn) (Nat.lt_irrefl _)
    · contradiction
  | inTransaction =>
    simp only [PgStatus.tables, PgTables.transact, hloop] at h
    split at h
    · rename_i n hn
      cases h
      exact absurd (hfewer _ hn) (Nat.lt_irrefl _)
    · contradiction

/-- What is lost of a batch is not counted. -/
theorem loadCopied_countServer_lt (hdouble : ∀ v, Plain (doubleText v))
    (hlength : flatParams.length = rowCount * colCount) (hcol : colCount ≠ 0)
    (hlost : ¬ CopiesWhole doubleText flatParams colCount rowCount) (n : ℕ)
    (h : countServer.loadCopied read target
      (copyBuffers doubleText flushes flatParams colCount rowCount) 0 = .ok n) : n < rowCount := by
  rw [PgServer.loadCopied] at h
  split at h
  · contradiction
  rename_i hdata
  have hlong : ∃ b ∈ copyBuffers doubleText flushes flatParams colCount rowCount,
      2 ^ 31 ≤ b.length := by
    by_contra hshort
    push Not at hshort
    rw [map_putCopyData hshort, flatten_copyBuffers, nul_mem_copyText] at hdata
    exact hlost ⟨hdata, hshort⟩
  have hfewer := count_putCopyData_lt (fun _ => endsLine_of_mem_copyBuffers) hlong
  have hall := length_of_readCopy (readCopy_copyBuffers hdouble flushes hlength
    (Nat.pos_of_ne_zero hcol))
  rw [List.length_map, length_batchRows] at hall
  split at h
  · rename_i rows hrows
    have hcount : loadAll (fun _ n => some (n + 1)) rows 0 = .ok (0 + rows.length) := by
      rw [loadAll, stepEach_count]
    have hn := hcount.symm.trans h
    rw [length_of_readCopy hrows] at hn
    have hn := Except.ok.inj hn
    omega
  · contradiction

/-- A counting server shows that the COPY is the statement. -/
theorem reads_of_tallyServer (hdouble : ∀ v, Plain (doubleText v)) (hrow : rowCount ≠ 0)
    (hcol : colCount ≠ 0) (hlength : flatParams.length = rowCount * colCount)
    (htarget : copyTarget sql = some target)
    (hwhole : CopiesWhole doubleText flatParams colCount rowCount) {status : PgStatus}
    (hstatus : status ≠ .aborted)
    (h : (tallyServer (read sql)).insertManyBatch read doubleText sql flatParams colCount rowCount
        (status.tables 0) =
      insertManyEach ((tallyServer (read sql)).executeRow read doubleText sql) flatParams colCount
        rowCount (status.tables 0)) :
    read sql = read (plainInsert target colCount) := by
  by_contra hread
  have hkeeps : (tallyServer (read sql)).execute (read (plainInsert target colCount)) =
      fun _ => some := countRows_of_ne (Ne.symm hread)
  refine insertManyBatch_ne_of_lt hrow hcol hlength htarget (fun _ => rfl) (countRows_self _)
    (fun n hn => ?_) hstatus h
  rw [loadCopied_eq hdouble hlength hcol hwhole, hkeeps, loadAll, stepEach_some] at hn
  rw [← Except.ok.inj hn]
  exact Nat.pos_of_ne_zero hrow

/-- A server that takes one row shows that there is one at most : the loop keeps it, and the COPY
loads none. -/
theorem few_of_oneRowServer (hdouble : ∀ v, Plain (doubleText v)) (hrow : rowCount ≠ 0)
    (hcol : colCount ≠ 0) (hlength : flatParams.length = rowCount * colCount)
    (htarget : copyTarget sql = some target)
    (hwhole : CopiesWhole doubleText flatParams colCount rowCount)
    (h : oneRowServer.insertManyBatch read doubleText sql flatParams colCount rowCount
        (.idle false) =
      insertManyEach (oneRowServer.executeRow read doubleText sql) flatParams colCount rowCount
        (.idle false)) :
    rowCount ≤ 1 := by
  by_contra hmany
  have hloop : stepEach (fun _ => attempt loadOne)
      (rowTexts doubleText flatParams colCount rowCount) false = .error true :=
    stepEach_loadOne (by rw [List.length_map, length_batchRows]; omega)
  have hall : loadAll (fun _ : List (Option (List Char)) => loadOne)
      (rowTexts doubleText flatParams colCount rowCount) false = .error false := by
    rw [loadAll, hloop]
  have hcopied : oneRowServer.loadCopied read target
      (copyBuffers doubleText flushes flatParams colCount rowCount) false = .error false :=
    (loadCopied_eq hdouble hlength hcol hwhole false).trans hall
  rw [insertManyBatch_of_target htarget hrow hcol,
    transact_takesCopy PgStatus.noConfusion fun _ => rfl,
    insertManyEach_executeRow hlength hrow hcol] at h
  simp only [PgTables.transact, hcopied] at h
  simp only [oneRowServer, hloop] at h
  injection h with h
  injection h with h
  contradiction

/-- A refused COPY aborts the transaction, in which the loop goes on. -/
theorem insertManyBatch_noCopyServer_ne (hrow : rowCount ≠ 0) (hcol : colCount ≠ 0)
    (hlength : flatParams.length = rowCount * colCount) (htarget : copyTarget sql = some target) :
    noCopyServer.insertManyBatch read doubleText sql flatParams colCount rowCount
        (.inTransaction () ()) ≠
      insertManyEach (noCopyServer.executeRow read doubleText sql) flatParams colCount rowCount
        (.inTransaction () ()) := by
  intro h
  have hloop := stepEach_some (rowTexts doubleText flatParams colCount rowCount) ()
  rw [insertManyBatch_of_target htarget hrow hcol,
    insertManyEach_executeRow hlength hrow hcol] at h
  simp only [PgTables.transact, noCopyServer, hloop] at h
  injection h

/-- The fast path of PostgreSQL has the effect of the loop on all servers of a kind and whatever
the tables hold iff it fits. -/
theorem pg_insertManyBatch_iff (hdouble : ∀ v, Plain (doubleText v))
    (hlength : flatParams.length = rowCount * colCount) (copies accepts : Bool)
    (status : PgStatus) :
    (∀ (σ : Type) (server : PgServer τ σ) (st : PgTables σ), st.status = status →
      (copies = true → ∀ target s, server.takesCopy target s = true) →
      (accepts = true → ∀ t row s, (server.execute t row s).isSome = true) →
      server.insertManyBatch read doubleText sql flatParams colCount rowCount st =
        insertManyEach (server.executeRow read doubleText sql) flatParams colCount rowCount st) ↔
    PgPathFits read doubleText copies accepts status sql flatParams colCount rowCount := by
  constructor
  · intro h
    by_cases hrow : rowCount = 0
    · exact .inl hrow
    by_cases hcol : colCount = 0
    · exact .inr (.inl hcol)
    by_cases haborted : status = .aborted
    · exact .inr (.inr (.inl haborted))
    refine .inr (.inr (.inr fun target htarget => ?_))
    have hwhole : CopiesWhole doubleText flatParams colCount rowCount := by
      by_contra hlost
      exact insertManyBatch_ne_of_lt hrow hcol hlength htarget (fun _ => rfl) rfl
        (loadCopied_countServer_lt hdouble hlength hcol hlost) haborted
        (h ℕ countServer (status.tables 0) (status_tables status 0) (fun _ _ _ => rfl)
          fun _ _ _ _ => rfl)
    refine ⟨reads_of_tallyServer hdouble hrow hcol hlength htarget hwhole haborted
      (h ℕ (tallyServer (read sql)) (status.tables 0) (status_tables status 0) (fun _ _ _ => rfl)
        fun _ => isSome_countRows _), hwhole, ?_, ?_⟩
    · rintro rfl
      by_contra hmany
      obtain ⟨hmany, haccepts⟩ := not_or.mp hmany
      exact hmany (few_of_oneRowServer hdouble hrow hcol hlength htarget hwhole
        (h Bool oneRowServer (.idle false) rfl (fun _ _ _ => rfl) fun h => absurd h haccepts))
    · rintro rfl
      by_contra hcopies
      exact insertManyBatch_noCopyServer_ne hrow hcol hlength htarget
        (h Unit noCopyServer (.inTransaction () ()) rfl (fun h => absurd h hcopies)
          fun _ _ _ _ => rfl)
  · rintro hfits σ server st rfl hcopies haccepts
    exact insertManyBatch_eq_of_fits hdouble hlength hcopies haccepts hfits

end PgServers

section MysqlEffects

variable {τ σ : Type} {read : List Char → τ} {readDouble : List Char → Double}
  {doubleText : Double → List Char} {server : MysqlServer τ σ} {sql start : List Char}
  {flatParams : List BoundValue} {colCount rowCount : ℕ}

/-- A literal from which a column of the type of a value gets the value. -/
def ConvertsTo (readDouble : List Char → Double) (doubleText : Double → List Char) :
    MysqlValue → MysqlValue → Prop
  | x, .double v => doubleText v ≠ ['-', '0'] ∧ readMysqlNumber readDouble (doubleText v) = some x
  | .hexadecimal bytes, .blob bytes' => bytes = bytes'
  | _, _ => False

/-- A server that takes such literals as it takes the values. -/
def MysqlServer.Converts (readDouble : List Char → Double) (doubleText : Double → List Char)
    (server : MysqlServer τ σ) : Prop :=
  ∀ t xs ys s, List.Forall₂ (fun x y => x = y ∨ ConvertsTo readDouble doubleText x y) xs ys →
    server.execute t xs s = server.execute t ys s

/-- A value whose literal is as good as the value : on servers that convert literals (`converts`) a
finite double but the negative zero, and a blob; on all a double whose text has an exponent, and
what is neither a double nor a blob. -/
def LiteralFits (readDouble : List Char → Double) (doubleText : Double → List Char)
    (converts : Bool) : BoundValue → Prop
  | .double v => readMysqlNumber readDouble (doubleText v) = some (.double v) ∨
    converts = true ∧ doubleText v ≠ ['-', '0'] ∧
      (readMysqlNumber readDouble (doubleText v)).isSome = true
  | .blob _ => converts = true
  | _ => True

/-- When the fast path of MySQL has the effect of the loop, on servers that refuse no row
(`accepts`) or convert literals (`converts`) or both or neither. -/
def MysqlPathFits (read : List Char → τ) (readDouble : List Char → Double)
    (doubleText : Double → List Char) (accepts converts : Bool) (sql : List Char)
    (flatParams : List BoundValue) (colCount rowCount : ℕ) : Prop :=
  rowCount = 0 ∨ colCount = 0 ∨ ∀ start, valuesPrefix sql = some start →
    read sql = read (start ++ marks colCount) ∧
    placeAfter .code start = .code ∧
    (rowCount ≤ 1 ∨ accepts = true) ∧
    ∀ row ∈ batchRows flatParams colCount rowCount, ∀ v ∈ row,
      LiteralFits readDouble doubleText converts v

theorem mapM_eq_map {α β : Type} {f : α → Option β} {g : α → β} {l : List α}
    (h : ∀ x ∈ l, f x = some (g x)) : l.mapM f = some (l.map g) := by
  induction l with
  | nil => rfl
  | cons x l ih =>
    obtain ⟨hx, hl⟩ := List.forall_mem_cons.mp h
    rw [List.mapM_cons, hx, ih hl]
    rfl

theorem isSome_of_isSome_mapM {α β : Type} {f : α → Option β} {l : List α}
    (h : (l.mapM f).isSome = true) : ∀ x ∈ l, (f x).isSome = true := by
  induction l with
  | nil => exact nofun
  | cons x l ih =>
    rw [List.mapM_cons] at h
    cases hx : f x with
    | none =>
      rw [hx] at h
      contradiction
    | some y =>
      rw [hx] at h
      cases hl : l.mapM f with
      | none =>
        rw [hl] at h
        contradiction
      | some ys =>
        refine List.forall_mem_cons.mpr ⟨by rw [hx]; rfl, ih ?_⟩
        rw [hl]
        rfl

/-- The value of a literal that can be read. -/
def readValue (readDouble : List Char → Double) (doubleText : Double → List Char)
    (v : BoundValue) : MysqlValue :=
  (literalValue readDouble doubleText v).getD .null

/-- A literal that is read is the value that it was made of. -/
theorem literalValue_eq {v : BoundValue}
    (h : (literalValue readDouble doubleText v).isSome = true) :
    literalValue readDouble doubleText v = some (readValue readDouble doubleText v) := by
  obtain ⟨x, hx⟩ := Option.isSome_iff_exists.mp h
  rw [readValue, hx]
  rfl

/-- What a statement for many rows loads, where its literals can be read. -/
theorem executeMany_eq (hdouble : ∀ v, NumberText (doubleText v)) (hcol : colCount ≠ 0)
    (hlength : flatParams.length = rowCount * colCount) {part : List (List BoundValue)}
    (hpart : part ∈ chunks batchChunk (batchRows flatParams colCount rowCount)) (s : σ) :
    server.executeMany read readDouble doubleText start part s =
      match if placeAfter .code start = .code then
          part.mapM fun row => row.mapM (literalValue readDouble doubleText) else none with
      | some rows =>
        loadAll (fun row => server.execute (read (start ++ marks row.length)) row) rows s
      | none => server.query (start ++ literalTuples doubleText part) s := by
  have hne : ∀ row ∈ part, row ≠ [] := by
    rintro row hrow rfl
    have hzero := length_of_mem_batchRows hlength (mem_of_mem_chunks (by decide) hpart hrow)
    exact hcol hzero.symm
  rw [MysqlServer.executeMany,
    readTuples_literalTuples hdouble (ne_nil_of_mem_chunks (by decide) hpart) hne]

/-- The rows that are read in a statement. -/
theorem executeMany_of_isSome (hdouble : ∀ v, NumberText (doubleText v)) (hcol : colCount ≠ 0)
    (hlength : flatParams.length = rowCount * colCount) {part : List (List BoundValue)}
    (hpart : part ∈ chunks batchChunk (batchRows flatParams colCount rowCount))
    (hplace : placeAfter .code start = .code)
    (hsome : ∀ row ∈ part, ∀ v ∈ row, (literalValue readDouble doubleText v).isSome = true)
    (s : σ) :
    server.executeMany read readDouble doubleText start part s =
      loadAll (fun row => server.execute (read (start ++ marks colCount))
        (row.map (readValue readDouble doubleText))) part s := by
  have hrows : (part.mapM fun row => row.mapM (literalValue readDouble doubleText)) =
      some (part.map fun row => row.map (readValue readDouble doubleText)) :=
    mapM_eq_map fun row hrow => mapM_eq_map fun v hv => literalValue_eq (hsome row hrow v hv)
  rw [executeMany_eq hdouble hcol hlength hpart, if_pos hplace, hrows]
  simp only
  rw [loadAll_map]
  refine loadAll_congr (fun row hrow => ?_) s
  rw [List.length_map,
    length_of_mem_batchRows hlength (mem_of_mem_chunks (by decide) hpart hrow)]

/-- A value that fits can be read, and a server takes its literal as it takes the value. -/
theorem readValue_of_fits {converts : Bool} {v : BoundValue}
    (h : LiteralFits readDouble doubleText converts v) :
    (literalValue readDouble doubleText v).isSome = true ∧
      (readValue readDouble doubleText v = mysqlBind v ∨
        converts = true ∧
          ConvertsTo readDouble doubleText (readValue readDouble doubleText v) (mysqlBind v)) := by
  cases v with
  | double v =>
    rcases h with hexponent | ⟨hconverts, hzero, hsome⟩
    · refine ⟨by rw [literalValue, hexponent]; rfl, .inl ?_⟩
      rw [readValue, literalValue, hexponent]
      rfl
    · exact ⟨hsome, .inr ⟨hconverts, hzero, literalValue_eq (v := .double v) hsome⟩⟩
  | blob v => exact ⟨rfl, .inr ⟨h, rfl⟩⟩
  | _ => exact ⟨rfl, .inl rfl⟩

/-- A row of literals is stored like the row that is bound. -/
theorem execute_readValue {converts : Bool}
    (hconverts : converts = true → server.Converts readDouble doubleText) {row : List BoundValue}
    (hfits : ∀ v ∈ row, LiteralFits readDouble doubleText converts v) (t : τ) :
    server.execute t (row.map (readValue readDouble doubleText)) =
      server.execute t (row.map mysqlBind) := by
  cases converts with
  | false =>
    have hrow : row.map (readValue readDouble doubleText) = row.map mysqlBind :=
      List.map_congr_left fun v hv =>
        (readValue_of_fits (hfits v hv)).2.resolve_right fun h => Bool.false_ne_true h.1
    rw [hrow]
  | true =>
    funext s
    refine hconverts rfl t _ _ s ?_
    rw [List.forall₂_map_left_iff, List.forall₂_map_right_iff, List.forall₂_same]
    exact fun v hv => (readValue_of_fits (hfits v hv)).2.imp_right And.right

/-- Where the rows fit, one statement leaves the tables that the loop leaves. -/
theorem mysql_insertManyBatch_of_fits {accepts converts : Bool}
    (hdouble : ∀ v, NumberText (doubleText v))
    (hlength : flatParams.length = rowCount * colCount)
    (haccepts : accepts = true → ∀ t row s, (server.execute t row s).isSome = true)
    (hconverts : converts = true → server.Converts readDouble doubleText)
    (hfits : MysqlPathFits read readDouble doubleText accepts converts sql flatParams colCount
      rowCount) (s : σ) :
    server.insertManyBatch read readDouble doubleText sql flatParams colCount rowCount s =
      insertManyEach (server.executeRow read sql) flatParams colCount rowCount s := by
  by_cases hzero : rowCount = 0 ∨ colCount = 0
  · rw [MysqlServer.insertManyBatch, insertManyEach, if_pos hzero, if_pos hzero]
  obtain ⟨hrow, hcol⟩ := not_or.mp hzero
  rw [MysqlServer.insertManyBatch, if_neg hzero, insertManyEach_eq _ hlength hrow hcol]
  cases hstart : valuesPrefix sql with
  | none => rfl
  | some start =>
    obtain ⟨hread, hplace, hmany, hvalues⟩ :=
      (hfits.resolve_left hrow).resolve_left hcol start hstart
    have hstep : ∀ part ∈ chunks batchChunk (batchRows flatParams colCount rowCount),
        server.executeMany read readDouble doubleText start part =
          stepEach (server.executeRow read sql) part := by
      intro part hpart
      have hmem : ∀ row ∈ part, row ∈ batchRows flatParams colCount rowCount := fun row hrow =>
        mem_of_mem_chunks (by decide) hpart hrow
      funext s
      rw [executeMany_of_isSome hdouble hcol hlength hpart hplace fun row hrow v hv =>
        (readValue_of_fits (hvalues row (hmem row hrow) v hv)).1]
      have hload : loadAll (fun row => server.execute (read (start ++ marks colCount))
          (row.map (readValue readDouble doubleText))) part s =
            loadAll (fun row => server.execute (read sql) (row.map mysqlBind)) part s := by
        refine loadAll_congr (fun row hrow => ?_) s
        rw [execute_readValue hconverts (hvalues row (hmem row hrow)), hread]
      rw [hload]
      refine loadAll_eq_stepEach (hmany.imp (fun hone => ?_) fun h _ _ => haccepts h _ _ _) s
      have hle := length_le_of_mem_chunks hpart
      rw [length_batchRows] at hle
      exact hle.trans hone
    simp only
    rw [stepEach_congr hstep, stepEach_flatten, flatten_chunks (by decide)]

end MysqlEffects

section MysqlServers

variable {τ : Type} {read : List Char → τ} {readDouble : List Char → Double}
  {doubleText : Double → List Char} {sql start : List Char} {flatParams : List BoundValue}
  {colCount rowCount : ℕ}

/-- A server that counts the rows of one statement. -/
noncomputable def tallyMysql (t : τ) : MysqlServer τ ℕ where
  execute := countRows t
  query _ n := .error n

/-- A server that takes one row. -/
def oneRowMysql : MysqlServer τ Bool where
  execute _ _ := loadOne
  query _ s := .error s

/-- A server that records the rows it loads, in its own form of their values. -/
def recordMysql (form : MysqlValue → MysqlValue) : MysqlServer τ (List (List MysqlValue)) where
  execute _ row rows := some (rows ++ [row.map form])
  query _ rows := .error rows

/-- A value in the form that its literal has. -/
def literalForm (readDouble : List Char → Double) (doubleText : Double → List Char) :
    MysqlValue → MysqlValue
  | .double v => if doubleText v = ['-', '0'] then .double v
    else (readMysqlNumber readDouble (doubleText v)).getD (.double v)
  | .hexadecimal bytes => .blob bytes
  | x => x

/-- What converts to a value has its form. -/
theorem literalForm_eq_of_convertsTo
    (hread : ∀ v w, readMysqlNumber readDouble (doubleText v) = some (.double w) → w = v)
    {x y : MysqlValue} (h : ConvertsTo readDouble doubleText x y) :
    literalForm readDouble doubleText x = literalForm readDouble doubleText y := by
  cases y with
  | double v =>
    obtain ⟨hzero, hnumber⟩ : doubleText v ≠ ['-', '0'] ∧
        readMysqlNumber readDouble (doubleText v) = some x := by
      cases x <;> exact h
    have hform : literalForm readDouble doubleText (.double v) = x := by
      rw [literalForm, if_neg hzero, hnumber]
      rfl
    rw [hform]
    rcases readMysqlNumber_cases hnumber with ⟨z, rfl⟩ | rfl | rfl
    · rfl
    · rfl
    · rw [hread v _ hnumber] at hform ⊢
      exact hform
  | blob bytes =>
    cases x with
    | hexadecimal bytes' =>
      obtain rfl : bytes' = bytes := h
      rfl
    | _ => exact h.elim
  | _ => cases x <;> exact h.elim

theorem converts_recordMysql
    (hread : ∀ v w, readMysqlNumber readDouble (doubleText v) = some (.double w) → w = v) :
    (recordMysql (τ := τ) (literalForm readDouble doubleText)).Converts readDouble doubleText := by
  intro t xs ys rows h
  have hrow : xs.map (literalForm readDouble doubleText) =
      ys.map (literalForm readDouble doubleText) := by
    induction h with
    | nil => rfl
    | cons hxy _ ih =>
      rw [List.map_cons, List.map_cons, ih]
      exact congrArg (· :: _) (hxy.elim (fun h => h ▸ rfl) (literalForm_eq_of_convertsTo hread))
  change some (rows ++ [xs.map _]) = some (rows ++ [ys.map _])
  rw [hrow]

/-- Rows are sent in a first part and the others. -/
theorem chunks_batchRows (flatParams : List BoundValue) (colCount : ℕ) (hrow : rowCount ≠ 0) :
    chunks batchChunk (batchRows flatParams colCount rowCount) =
      (batchRows flatParams colCount rowCount).take batchChunk ::
        chunks batchChunk ((batchRows flatParams colCount rowCount).drop batchChunk) := by
  refine chunks_of_ne_nil (by decide) ?_
  rwa [← List.length_pos_iff, length_batchRows, Nat.pos_iff_ne_zero]

/-- What a recording server adds for a part of the rows, if it reads their literals. -/
def recordedPart (readDouble : List Char → Double) (doubleText : Double → List Char)
    (start : List Char) (form : MysqlValue → MysqlValue) (part : List (List BoundValue)) :
    Option (List (List MysqlValue)) :=
  (if placeAfter .code start = .code then
    part.mapM fun row => row.mapM (literalValue readDouble doubleText) else none).map
      fun rows => rows.map fun row => row.map form

theorem executeMany_recordMysql (hdouble : ∀ v, NumberText (doubleText v)) (hcol : colCount ≠ 0)
    (hlength : flatParams.length = rowCount * colCount) (form : MysqlValue → MysqlValue)
    {part : List (List BoundValue)}
    (hpart : part ∈ chunks batchChunk (batchRows flatParams colCount rowCount)) :
    (recordMysql form).executeMany read readDouble doubleText start part =
      recordList (recordedPart readDouble doubleText start form part) := by
  funext s
  rw [executeMany_eq hdouble hcol hlength hpart, recordedPart]
  cases if placeAfter .code start = .code then
    part.mapM fun row => row.mapM (literalValue readDouble doubleText) else none with
  | none => rfl
  | some rows =>
    change loadAll (fun row s => some (s ++ [row.map form])) rows s = _
    rw [loadAll, stepEach_record]
    rfl

/-- A part is read where its first statement begins in code, and all its literals have values. -/
theorem of_isSome_recordedPart {form : MysqlValue → MysqlValue} {part : List (List BoundValue)}
    (h : (recordedPart readDouble doubleText start form part).isSome = true) :
    placeAfter .code start = .code ∧
      ∀ row ∈ part, ∀ v ∈ row, (literalValue readDouble doubleText v).isSome = true := by
  unfold recordedPart at h
  split at h
  · rename_i hplace
    rw [Option.isSome_map] at h
    exact ⟨hplace, fun row hrow v hv =>
      isSome_of_isSome_mapM (isSome_of_isSome_mapM h row hrow) v hv⟩
  · contradiction

/-- Then it is recorded as its values. -/
theorem recordedPart_eq (hplace : placeAfter .code start = .code) (form : MysqlValue → MysqlValue)
    {part : List (List BoundValue)}
    (hsome : ∀ row ∈ part, ∀ v ∈ row, (literalValue readDouble doubleText v).isSome = true) :
    recordedPart readDouble doubleText start form part =
      some (part.map fun row => (row.map (readValue readDouble doubleText)).map form) := by
  have hpart : (part.mapM fun row => row.mapM (literalValue readDouble doubleText)) =
      some (part.map fun row => row.map (readValue readDouble doubleText)) :=
    mapM_eq_map fun row hrow => mapM_eq_map fun v hv => literalValue_eq (hsome row hrow v hv)
  rw [recordedPart, if_pos hplace, hpart, Option.map_some, List.map_map]
  rfl

/-- A recording server shows where the literals are as good as the values. -/
theorem fits_of_recordMysql (hdouble : ∀ v, NumberText (doubleText v)) (hrow : rowCount ≠ 0)
    (hcol : colCount ≠ 0) (hlength : flatParams.length = rowCount * colCount)
    (hstart : valuesPrefix sql = some start) (form : MysqlValue → MysqlValue)
    (h : (recordMysql form).insertManyBatch read readDouble doubleText sql flatParams colCount
        rowCount [] =
      insertManyEach ((recordMysql form).executeRow read sql) flatParams colCount rowCount []) :
    placeAfter .code start = .code ∧
      ∀ row ∈ batchRows flatParams colCount rowCount, ∀ v ∈ row,
        ∃ x, literalValue readDouble doubleText v = some x ∧ form x = form (mysqlBind v) := by
  have hloop : stepEach ((recordMysql form).executeRow read sql)
      (batchRows flatParams colCount rowCount) [] =
        .ok ([] ++ (batchRows flatParams colCount rowCount).map fun row =>
          (row.map mysqlBind).map form) := stepEach_record _ _ _
  rw [MysqlServer.insertManyBatch, if_neg (by tauto), hstart,
    insertManyEach_eq _ hlength hrow hcol, hloop] at h
  simp only [stepEach_congr fun part hpart =>
    executeMany_recordMysql hdouble hcol hlength form hpart] at h
  obtain ⟨hlisted, hrows⟩ := of_stepEach_recordList
    (recordedPart readDouble doubleText start form) h
  have hplace : placeAfter .code start = .code :=
    (of_isSome_recordedPart (hlisted _ (by
      rw [chunks_batchRows flatParams colCount hrow]
      exact List.mem_cons_self))).1
  have hsome : ∀ row ∈ batchRows flatParams colCount rowCount, ∀ v ∈ row,
      (literalValue readDouble doubleText v).isSome = true := by
    intro row hrow
    rw [← flatten_chunks (by decide : batchChunk ≠ 0) (batchRows flatParams colCount rowCount)]
      at hrow
    obtain ⟨part, hpart, hrow⟩ := List.mem_flatten.mp hrow
    exact (of_isSome_recordedPart (hlisted part hpart)).2 row hrow
  have hread : (chunks batchChunk (batchRows flatParams colCount rowCount)).flatMap
      (fun part => (recordedPart readDouble doubleText start form part).getD []) =
        (batchRows flatParams colCount rowCount).map fun row =>
          (row.map (readValue readDouble doubleText)).map form := by
    rw [← flatten_chunks (by decide : batchChunk ≠ 0) (batchRows flatParams colCount rowCount),
      List.map_flatten, flatten_chunks (by decide), List.flatMap_def]
    refine congrArg _ (List.map_congr_left fun part hpart => ?_)
    rw [recordedPart_eq hplace form fun row hrow =>
      hsome row (mem_of_mem_chunks (by decide) hpart hrow), Option.getD_some]
  rw [hread, List.nil_append, List.nil_append, List.map_inj_left] at hrows
  refine ⟨hplace, fun row hrow v hv => ⟨_, literalValue_eq (hsome row hrow v hv), ?_⟩⟩
  have hvalues := hrows row hrow
  rw [List.map_map, List.map_map, List.map_inj_left] at hvalues
  exact (hvalues v hv).symm

/-- A counting server shows that the statement for many rows is the statement for one. -/
theorem reads_of_tallyMysql (hdouble : ∀ v, NumberText (doubleText v)) (hrow : rowCount ≠ 0)
    (hcol : colCount ≠ 0) (hlength : flatParams.length = rowCount * colCount)
    (hstart : valuesPrefix sql = some start) (hplace : placeAfter .code start = .code)
    (hsome : ∀ row ∈ batchRows flatParams colCount rowCount, ∀ v ∈ row,
      (literalValue readDouble doubleText v).isSome = true)
    (h : (tallyMysql (read sql)).insertManyBatch read readDouble doubleText sql flatParams colCount
        rowCount 0 =
      insertManyEach ((tallyMysql (read sql)).executeRow read sql) flatParams colCount rowCount 0) :
    read sql = read (start ++ marks colCount) := by
  by_contra hne
  have hkeeps : (tallyMysql (read sql)).execute (read (start ++ marks colCount)) =
      fun _ => some := countRows_of_ne (Ne.symm hne)
  have hstep : ∀ part ∈ chunks batchChunk (batchRows flatParams colCount rowCount),
      (tallyMysql (read sql)).executeMany read readDouble doubleText start part = attempt some := by
    intro part hpart
    funext n
    rw [executeMany_of_isSome hdouble hcol hlength hpart hplace fun row hrow =>
      hsome row (mem_of_mem_chunks (by decide) hpart hrow), hkeeps, loadAll, stepEach_some]
    rfl
  have hcounts : (tallyMysql (read sql)).executeRow read sql =
      fun _ => attempt fun n => some (n + 1) := by
    funext row
    exact congrArg (fun f => attempt (f (row.map mysqlBind))) (countRows_self (read sql))
  rw [MysqlServer.insertManyBatch, if_neg (by tauto), hstart,
    insertManyEach_eq _ hlength hrow hcol, hcounts, stepEach_count, length_batchRows] at h
  simp only [stepEach_congr hstep, stepEach_some] at h
  injection h with h
  omega

/-- A server that takes one row shows that there is one at most : the loop keeps it, and the
statement for many rows loads none. -/
theorem few_of_oneRowMysql (hdouble : ∀ v, NumberText (doubleText v)) (hrow : rowCount ≠ 0)
    (hcol : colCount ≠ 0) (hlength : flatParams.length = rowCount * colCount)
    (hstart : valuesPrefix sql = some start) (hplace : placeAfter .code start = .code)
    (hsome : ∀ row ∈ batchRows flatParams colCount rowCount, ∀ v ∈ row,
      (literalValue readDouble doubleText v).isSome = true)
    (h : oneRowMysql.insertManyBatch read readDouble doubleText sql flatParams colCount rowCount
        false =
      insertManyEach (oneRowMysql.executeRow read sql) flatParams colCount rowCount false) :
    rowCount ≤ 1 := by
  by_contra hmany
  have hchunks := chunks_batchRows flatParams colCount hrow
  have hmem : (batchRows flatParams colCount rowCount).take batchChunk ∈
      chunks batchChunk (batchRows flatParams colCount rowCount) := by
    rw [hchunks]
    exact List.mem_cons_self
  have hfirst : oneRowMysql.executeMany read readDouble doubleText start
      ((batchRows flatParams colCount rowCount).take batchChunk) false = .error false := by
    rw [executeMany_of_isSome hdouble hcol hlength hmem hplace fun row hrow =>
      hsome row (mem_of_mem_chunks (by decide) hmem hrow), loadAll]
    have hone : stepEach (fun _ => attempt loadOne)
        ((batchRows flatParams colCount rowCount).take batchChunk) false = .error true := by
      refine stepEach_loadOne ?_
      rw [List.length_take, length_batchRows, batchChunk]
      omega
    simp only [oneRowMysql, hone]
  have hloop : stepEach (oneRowMysql.executeRow read sql)
      (batchRows flatParams colCount rowCount) false = .error true :=
    stepEach_loadOne (by rw [length_batchRows]; omega)
  rw [MysqlServer.insertManyBatch, if_neg (by tauto), hstart,
    insertManyEach_eq _ hlength hrow hcol, hloop, hchunks] at h
  simp only [stepEach, hfirst] at h
  injection h with h
  contradiction

/-- A value fits if the literal is of the form that the server keeps. -/
theorem literalFits_of_form {converts : Bool} {v : BoundValue} {x : MysqlValue}
    (hx : literalValue readDouble doubleText v = some x)
    (hform : (if converts then literalForm readDouble doubleText else id) x =
      (if converts then literalForm readDouble doubleText else id) (mysqlBind v)) :
    LiteralFits readDouble doubleText converts v := by
  cases v with
  | double v =>
    cases converts with
    | false =>
      obtain rfl : x = .double v := hform
      exact .inl hx
    | true =>
      refine .inr ⟨rfl, fun hzero => ?_, by rw [literalValue] at hx; rw [hx]; rfl⟩
      have hnumber : readMysqlNumber readDouble (doubleText v) = some (.integer 0) := by
        rw [hzero]
        rfl
      obtain rfl : x = .integer 0 := Option.some.inj (hx.symm.trans hnumber)
      have hv : literalForm readDouble doubleText (.double v) = .double v := if_pos hzero
      exact absurd (hform.trans hv) nofun
  | blob v =>
    cases converts with
    | false =>
      obtain rfl : x = .hexadecimal v := (Option.some.inj hx).symm
      exact absurd hform nofun
    | true => rfl
  | _ => trivial

/-- The fast path of MySQL has the effect of the loop on all servers of a kind and whatever the
tables hold iff it fits. A refused statement ends no transaction there. -/
theorem mysql_insertManyBatch_iff (hdouble : ∀ v, NumberText (doubleText v))
    (hread : ∀ v w, readMysqlNumber readDouble (doubleText v) = some (.double w) → w = v)
    (hlength : flatParams.length = rowCount * colCount) (accepts converts : Bool) :
    (∀ (σ : Type) (server : MysqlServer τ σ) (s : σ),
      (accepts = true → ∀ t row s, (server.execute t row s).isSome = true) →
      (converts = true → server.Converts readDouble doubleText) →
      server.insertManyBatch read readDouble doubleText sql flatParams colCount rowCount s =
        insertManyEach (server.executeRow read sql) flatParams colCount rowCount s) ↔
    MysqlPathFits read readDouble doubleText accepts converts sql flatParams colCount
      rowCount := by
  constructor
  · intro h
    by_cases hrow : rowCount = 0
    · exact .inl hrow
    by_cases hcol : colCount = 0
    · exact .inr (.inl hcol)
    refine .inr (.inr fun start hstart => ?_)
    obtain ⟨hplace, hvalues⟩ := fits_of_recordMysql hdouble hrow hcol hlength hstart
      (if converts then literalForm readDouble doubleText else id)
      (h _ (recordMysql _) [] (fun _ _ _ _ => rfl) fun hconverts => by
        subst hconverts
        exact converts_recordMysql hread)
    have hsome : ∀ row ∈ batchRows flatParams colCount rowCount, ∀ v ∈ row,
        (literalValue readDouble doubleText v).isSome = true := by
      intro row hrow v hv
      obtain ⟨x, hx, -⟩ := hvalues row hrow v hv
      rw [hx]
      rfl
    refine ⟨?_, hplace, ?_, fun row hrow v hv => ?_⟩
    · exact reads_of_tallyMysql hdouble hrow hcol hlength hstart hplace hsome
        (h ℕ (tallyMysql (read sql)) 0 (fun _ => isSome_countRows _) fun _ _ _ _ _ _ => by
          simp only [tallyMysql, countRows])
    · by_contra hmany
      obtain ⟨hmany, haccepts⟩ := not_or.mp hmany
      exact hmany (few_of_oneRowMysql hdouble hrow hcol hlength hstart hplace hsome
        (h Bool oneRowMysql false (fun h => absurd h haccepts) fun _ _ _ _ _ _ => rfl))
    · obtain ⟨x, hx, hform⟩ := hvalues row hrow v hv
      exact literalFits_of_form hx hform
  · intro hfits σ server s haccepts hconverts
    exact mysql_insertManyBatch_of_fits hdouble hlength haccepts hconverts hfits s

end MysqlServers

/-! ## Both drivers -/

/-- The fast paths have the effect of the loop, on all servers of a kind and whatever the tables
hold, iff they fit the text, the values, the number of rows and the state of the transaction. -/
theorem fast_paths_iff {τ : Type} (read : List Char → τ) {doubleText : Double → List Char}
    (hdouble : ∀ v, NumberText (doubleText v)) {readDouble : List Char → Double}
    (hread : ∀ v w, readMysqlNumber readDouble (doubleText v) = some (.double w) → w = v)
    (sql : List Char) {flatParams : List BoundValue} {colCount rowCount : ℕ}
    (hlength : flatParams.length = rowCount * colCount) (copies accepts converts : Bool)
    (status : PgStatus) :
    ((∀ (σ : Type) (server : PgServer τ σ) (st : PgTables σ), st.status = status →
        (copies = true → ∀ target s, server.takesCopy target s = true) →
        (accepts = true → ∀ t row s, (server.execute t row s).isSome = true) →
        server.insertManyBatch read doubleText sql flatParams colCount rowCount st =
          insertManyEach (server.executeRow read doubleText sql) flatParams colCount rowCount
            st) ↔
      PgPathFits read doubleText copies accepts status sql flatParams colCount rowCount) ∧
    ((∀ (σ : Type) (server : MysqlServer τ σ) (s : σ),
        (accepts = true → ∀ t row s, (server.execute t row s).isSome = true) →
        (converts = true → server.Converts readDouble doubleText) →
        server.insertManyBatch read readDouble doubleText sql flatParams colCount rowCount s =
          insertManyEach (server.executeRow read sql) flatParams colCount rowCount s) ↔
      MysqlPathFits read readDouble doubleText accepts converts sql flatParams colCount
        rowCount) :=
  ⟨pg_insertManyBatch_iff (fun v => (hdouble v).plain) hlength copies accepts status,
    mysql_insertManyBatch_iff hdouble hread hlength accepts converts⟩

/-- A plain insert of two columns, and two rows with a quote and a NULL. -/
def plainSql : List Char :=
  plainInsert "t (id, name)".toList 2

/-- The rows that go with `plainSql`. -/
def plainRows : List BoundValue :=
  [.int64 7, .string "it's", .int64 8, .null]

theorem pgPathFits_plain :
    PgPathFits id (fun _ => ['0']) true false .inTransaction plainSql plainRows 2 2 := by
  refine .inr (.inr (.inr fun target htarget => ⟨?_, ⟨?_, ?_⟩, nofun, fun _ => rfl⟩))
  · obtain rfl : "t (id, name)".toList = target := Option.some.inj htarget
    rfl
  · rw [← nul_mem_copyText]
    decide +kernel
  · decide +kernel

theorem mysqlPathFits_plain :
    MysqlPathFits id (fun _ => ⟨0⟩) (fun _ => ['0']) true false plainSql plainRows 2 2 := by
  refine .inr (.inr fun start hstart => ?_)
  obtain rfl : "INSERT INTO t (id, name) VALUES ".toList = start := Option.some.inj hstart
  refine ⟨rfl, by decide +kernel, .inr rfl, fun row hrow v hv => ?_⟩
  have hmem : v ∈ plainRows := by
    obtain ⟨i, -, rfl⟩ := List.mem_map.mp hrow
    exact List.mem_of_mem_drop (List.mem_of_mem_take hv)
  simp only [plainRows, List.mem_cons, List.not_mem_nil, or_false] at hmem
  rcases hmem with rfl | rfl | rfl | rfl <;> trivial

/-- In a transaction the rows are copied, and in MySQL listed, as the loop inserts them. -/
theorem fast_paths_plainInsert :
    (∀ (σ : Type) (server : PgServer (List Char) σ) (st : PgTables σ), st.status = .inTransaction →
        (true = true → ∀ target s, server.takesCopy target s = true) →
        (false = true → ∀ t row s, (server.execute t row s).isSome = true) →
        server.insertManyBatch id (fun _ => ['0']) plainSql plainRows 2 2 st =
          insertManyEach (server.executeRow id (fun _ => ['0']) plainSql) plainRows 2 2 st) ∧
    (∀ (σ : Type) (server : MysqlServer (List Char) σ) (s : σ),
        (true = true → ∀ t row s, (server.execute t row s).isSome = true) →
        (false = true → server.Converts (fun _ => ⟨0⟩) (fun _ => ['0'])) →
        server.insertManyBatch id (fun _ => ⟨0⟩) (fun _ => ['0']) plainSql plainRows 2 2 s =
          insertManyEach (server.executeRow id plainSql) plainRows 2 2 s) :=
  have hdouble : ∀ _ : Double, NumberText ['0'] := fun _ =>
    List.forall_mem_singleton.mpr (.inl rfl)
  have hread : ∀ v w : Double,
      readMysqlNumber (fun _ => ⟨0⟩) ['0'] = some (.double w) → w = v := fun _ _ => nofun
  have hpaths := @fast_paths_iff (List Char) id (fun _ => ['0']) hdouble (fun _ => ⟨0⟩) hread
    plainSql plainRows 2 2 rfl
  ⟨(hpaths true false false .inTransaction).1.mpr pgPathFits_plain,
    (hpaths true true false .idle).2.mpr mysqlPathFits_plain⟩

/-- `INSERT` of a key that keeps the row there is. -/
def keepSql : List Char :=
  "INSERT INTO t (id) VALUES (?) ON CONFLICT DO NOTHING".toList

/-- A table with a key. -/
def keyServer : PgServer (List Char) (List (List (Option (List Char)))) where
  execute sql row rows :=
    if rows.contains row then if sql = keepSql then some rows else none else some (rows ++ [row])
  takesCopy _ _ := true

/-- The COPY loads a key again, and aborts the transaction. -/
theorem insertManyBatch_keepSql : keyServer.insertManyBatch id (fun _ => ['0']) keepSql
    [.int64 7] 1 1 (.inTransaction [] [[some ['7']]]) = .error (.aborted []) :=
  rfl

theorem insertManyEach_keepSql : insertManyEach (keyServer.executeRow id (fun _ => ['0']) keepSql)
    [.int64 7] 1 1 (.inTransaction [] [[some ['7']]]) = .ok (.inTransaction [] [[some ['7']]]) :=
  rfl

/-- What follows the values of a statement is lost in a `COPY`. -/
theorem not_forall_insertManyBatch_eq : ¬ ∀ (σ : Type) (server : PgServer (List Char) σ)
    (sql : List Char) (flatParams : List BoundValue) (colCount rowCount : ℕ) (st : PgTables σ),
    flatParams.length = rowCount * colCount →
    server.insertManyBatch id (fun _ => ['0']) sql flatParams colCount rowCount st =
      insertManyEach (server.executeRow id (fun _ => ['0']) sql) flatParams colCount rowCount
        st := by
  intro h
  have heq := h _ keyServer keepSql [.int64 7] 1 1 (.inTransaction [] [[some ['7']]]) rfl
  rw [insertManyBatch_keepSql, insertManyEach_keepSql] at heq
  injection heq

end CppLinq
