import CppLinq.StatementNames
import CppLinq.BatchAtomicity

/-!
# Upserts

The columns that `upsert` and `upsert_many` of `core/db_context.h` hand to
`generate_upsert` when the caller names none. The conflict columns are gathered by a
fold over the columns of the table that adds a key column only while the list is
empty, so a table with two key columns is matched on the first alone
(`defaultKeys_iff`).
-/

namespace CppLinq

/-! ## The columns by default -/

namespace TableDef

variable {E : Type} (table : TableDef E)

/-- The fold of `upsert` over the columns : its guard looks at the list it builds. -/
def conflictFold (given : List String) : List String :=
  table.columns.foldl
    (fun acc col => if col.isPrimaryKey && acc.isEmpty then acc ++ [col.name] else acc) given

theorem foldl_nonempty (cols : List (ColumnDef E)) {acc : List String} (h : acc ≠ []) :
    cols.foldl
      (fun acc col => if col.isPrimaryKey && acc.isEmpty then acc ++ [col.name] else acc) acc =
        acc := by
  induction cols with
  | nil => rfl
  | cons col cols ih =>
    have hguard : (col.isPrimaryKey && acc.isEmpty) = false := by simp [h]
    rw [List.foldl_cons, hguard]
    exact ih

theorem foldl_nil (cols : List (ColumnDef E)) :
    cols.foldl
      (fun acc col => if col.isPrimaryKey && acc.isEmpty then acc ++ [col.name] else acc) [] =
        ((cols.filter (·.isPrimaryKey)).take 1).map (·.name) := by
  induction cols with
  | nil => rfl
  | cons col cols ih =>
    cases hkey : col.isPrimaryKey with
    | true => simpa [hkey] using foldl_nonempty cols (List.cons_ne_nil col.name [])
    | false => simpa [hkey] using ih

/-- The fold finds the first key column, or keeps what was given. -/
theorem conflictFold_eq (given : List String) :
    table.conflictFold given = table.conflictColumns given := by
  by_cases hgiven : given = []
  · subst hgiven
    exact foldl_nil table.columns
  · rw [conflictColumns, if_neg (by simpa using hgiven)]
    exact foldl_nonempty table.columns hgiven

/-- The default keys of an upsert are those of the table : it matches on all key columns
and updates all others. -/
def DefaultKeys : Prop :=
  table.conflictColumns [] = table.pkColumns.map (·.name) ∧
    table.updateColumns (table.conflictColumns []) [] = table.nonPkColumns.map (·.name)

instance : Decidable table.DefaultKeys :=
  inferInstanceAs (Decidable (_ ∧ _))

theorem conflictColumns_nil_iff :
    table.conflictColumns [] = table.pkColumns.map (·.name) ↔ table.pkColumns.length ≤ 1 := by
  simp only [conflictColumns, List.isEmpty_nil, if_pos]
  constructor
  · intro h
    have hlength := congrArg List.length h
    simp only [List.length_map, List.length_take] at hlength
    omega
  · intro h
    rw [List.take_of_length_le h]

/-- What the default update list keeps, when the conflict columns are the key. -/
theorem updateColumns_pk_iff :
    table.updateColumns (table.pkColumns.map (·.name)) [] = table.nonPkColumns.map (·.name) ↔
      ∀ p ∈ table.pkColumns, ∀ c ∈ table.nonPkColumns, c.name ≠ p.name := by
  simp only [updateColumns, List.isEmpty_nil, if_pos, columnNames]
  constructor
  · intro h p hp c hc hname
    have hmem : c.name ∈ table.nonPkColumns.map (·.name) := List.mem_map_of_mem hc
    rw [← h, List.mem_filter] at hmem
    simp only [List.contains_eq_mem, Bool.not_eq_true', decide_eq_false_iff_not] at hmem
    exact hmem.2 (hname ▸ List.mem_map_of_mem hp)
  · intro h
    rw [List.filter_map, nonPkColumns]
    congr 1
    refine List.filter_congr fun c hc => ?_
    cases hkey : c.isPrimaryKey with
    | true =>
      have hpk : c ∈ table.pkColumns := List.mem_filter.mpr ⟨hc, hkey⟩
      have hname : c.name ∈ table.pkColumns.map (·.name) := List.mem_map_of_mem hpk
      rw [Function.comp_apply, List.contains_iff_mem.mpr hname]
    | false =>
      have hother : c ∈ table.nonPkColumns := List.mem_filter.mpr ⟨hc, by simp [hkey]⟩
      have hname : c.name ∉ table.pkColumns.map (·.name) := by
        intro hmem
        obtain ⟨p, hp, hpc⟩ := List.mem_map.mp hmem
        exact h p hp c hother hpc.symm
      simpa [hkey] using hname

/-- The default keys are those of the table just when it has one key column at most, and
no other column has its name. -/
theorem defaultKeys_iff_names :
    table.DefaultKeys ↔ table.pkColumns.length ≤ 1 ∧
      ∀ p ∈ table.pkColumns, ∀ c ∈ table.nonPkColumns, c.name ≠ p.name := by
  constructor
  · rintro ⟨hconflict, hupdate⟩
    rw [hconflict] at hupdate
    exact ⟨table.conflictColumns_nil_iff.mp hconflict, table.updateColumns_pk_iff.mp hupdate⟩
  · rintro ⟨hlength, hnames⟩
    have hconflict := table.conflictColumns_nil_iff.mpr hlength
    refine ⟨hconflict, ?_⟩
    rw [hconflict]
    exact table.updateColumns_pk_iff.mpr hnames

end TableDef

/-- With default keys, `upsert` matches on the key columns and updates the others. -/
theorem DbContext.upsert_defaultKeys (conn : Connection) {E : Type} {table : TableDef E}
    (h : table.DefaultKeys) (entity : E) :
    DbContext.upsert conn table entity [] [] = (do
      let r ← generateUpsert conn.dialect table.name table.columnNames
        (rowValues table.columns entity) (table.pkColumns.map (·.name))
        (table.nonPkColumns.map (·.name))
      call conn.driver (.prepare r.sql)
      conn.executeWith r.params) := by
  rw [DbContext.upsert, h.2, h.1]

/-- So does `upsert_many`. -/
theorem DbContext.upsertSql_defaultKeys (conn : Connection) {E : Type} {table : TableDef E}
    (h : table.DefaultKeys) (front : E) :
    DbContext.upsertSql conn table front [] [] = (do
      let r ← generateUpsert conn.dialect table.name table.columnNames
        (rowValues table.columns front) (table.pkColumns.map (·.name))
        (table.nonPkColumns.map (·.name))
      return r.sql) := by
  rw [DbContext.upsertSql, h.2, h.1]

/-- The conflict columns are what the fold finds. The default keys are those of the table just
when it has one key column at most, and no other column has its name, and then `upsert` and
`upsert_many` match on the key column and update the others. -/
theorem TableDef.defaultKeys_iff {E : Type} (table : TableDef E) :
    (∀ given, table.conflictFold given = table.conflictColumns given) ∧
    (table.DefaultKeys ↔ table.pkColumns.length ≤ 1 ∧
      ∀ p ∈ table.pkColumns, ∀ c ∈ table.nonPkColumns, c.name ≠ p.name) ∧
    (table.DefaultKeys → ∀ (conn : Connection) (entity : E),
      DbContext.upsert conn table entity [] [] = (do
        let r ← generateUpsert conn.dialect table.name table.columnNames
          (rowValues table.columns entity) (table.pkColumns.map (·.name))
          (table.nonPkColumns.map (·.name))
        call conn.driver (.prepare r.sql)
        conn.executeWith r.params) ∧
      DbContext.upsertSql conn table entity [] [] = (do
        let r ← generateUpsert conn.dialect table.name table.columnNames
          (rowValues table.columns entity) (table.pkColumns.map (·.name))
          (table.nonPkColumns.map (·.name))
        return r.sql)) :=
  ⟨table.conflictFold_eq, table.defaultKeys_iff_names, fun h conn entity =>
    ⟨DbContext.upsert_defaultKeys conn h entity, DbContext.upsertSql_defaultKeys conn h entity⟩⟩

/-- The lines of an order, with a key of two columns. -/
def orderLines : TableDef (Int64 × Int64 × Int64) where
  name := "order_lines"
  columns := [
    { name := "order_id", isPrimaryKey := true, value := fun e => .int64 e.1 },
    { name := "line_no", isPrimaryKey := true, value := fun e => .int64 e.2.1 },
    { name := "amount", value := fun e => .int64 e.2.2 }]

/-- An upsert of a line matches on the order, and updates the number of the line. -/
theorem orderLines_upsert_keys :
    orderLines.conflictColumns [] = ["order_id"] ∧
      orderLines.updateColumns (orderLines.conflictColumns []) [] = ["line_no", "amount"] ∧
      ¬ orderLines.DefaultKeys := by
  decide

end CppLinq
