import Mathlib.Data.List.Nodup
import CppLinq.TableRefinement

/-!
# Requests that are sent again

A client that does not know whether an operation was committed sends it again. That is as
good as sending it once for `delete_many`, for `update_many`, for `insert_many` without
entities, and for `upsert_many` where every entity has values in the conflict columns
(`Repeatable`, `effectRows_effectRows`). A row with a `NULL` there matches none, not even
itself, and is inserted every time (`length_lt_effectRows`). `requests_repeated` says so of
every run of requests, whichever of their calls throw.
-/

namespace CppLinq

/-! ## Conditional updates -/

/-- The value after updates, each made where its condition is true. -/
def setAll {α β : Type*} (p : α → β → Prop) [∀ x b, Decidable (p x b)] (set : α → β → β)
    (xs : List α) (b : β) : β :=
  xs.foldl (fun b x => if p x b then set x b else b) b

section Sets

variable {α β : Type*} {p : α → β → Prop} [∀ x b, Decidable (p x b)] {set : α → β → β}
  {x : α} {xs : List α} {b : β}

/-- The last change comes after the others. -/
theorem setAll_concat : setAll p set (xs ++ [x]) b =
    if p x (setAll p set xs b) then set x (setAll p set xs b) else setAll p set xs b := by
  rw [setAll, List.foldl_append]
  rfl

theorem foldl_maps (f : α → β → β) (xs : List α) (bs : List β) :
    xs.foldl (fun bs x => bs.map (f x)) bs = bs.map fun b => xs.foldl (fun b x => f x b) b := by
  induction xs generalizing bs with
  | nil => exact (List.map_id bs).symm
  | cons x xs ih =>
    rw [List.foldl_cons, ih, List.map_map]
    rfl

/-- An update keeps the conditions. -/
theorem pred_setAll (hp : ∀ x y b, p y b → (p x (set y b) ↔ p x b)) :
    p x (setAll p set xs b) ↔ p x b := by
  induction xs using List.reverseRecOn with
  | nil => rfl
  | append_singleton xs y ih =>
    rw [setAll_concat]
    split
    · rename_i h
      exact (hp x y _ h).trans ih
    · exact ih

/-- An update leaves nothing of those before it. -/
theorem set_setAll (hset : ∀ x y b, set x (set y b) = set x b) :
    set x (setAll p set xs b) = set x b := by
  induction xs using List.reverseRecOn with
  | nil => rfl
  | append_singleton xs y ih =>
    rw [setAll_concat]
    split
    · exact (hset x y _).trans ih
    · exact ih

section Absorbing

variable (hp : ∀ x y b, p y b → (p x (set y b) ↔ p x b))
  (hset : ∀ x y b, set x (set y b) = set x b)
include hp hset

/-- What was set last stays. -/
theorem setAll_concat_of_fixed (h : p x b) (hfixed : set x b = b) :
    setAll p set (xs ++ [x]) b = b := by
  rw [setAll_concat, if_pos ((pred_setAll hp).mpr h), set_setAll hset, hfixed]

/-- Changes that are made again change nothing. -/
theorem setAll_setAll : setAll p set xs (setAll p set xs b) = setAll p set xs b := by
  induction xs using List.reverseRecOn with
  | nil => rfl
  | append_singleton xs x ih =>
    by_cases h : p x (setAll p set xs b)
    · have hlast : setAll p set (xs ++ [x]) b = set x (setAll p set xs b) := by
        rw [setAll_concat, if_pos h]
      rw [hlast]
      exact setAll_concat_of_fixed hp hset ((hp x x _ h).mpr h) (hset x x _)
    · have hlast : setAll p set (xs ++ [x]) b = setAll p set xs b := by
        rw [setAll_concat, if_neg h]
      rw [hlast, setAll_concat, ih, if_neg h]

end Absorbing

end Sets

/-! ## Upserts -/

/-- The rows after upserts, one after another. -/
def upsertAll (key upd : List String) (news rows : List NamedRow) : List NamedRow :=
  news.foldl (fun rows new => upsertRows key upd new rows) rows

section Upserts

variable {key upd : List String} {new r r' : NamedRow} {news rows : List NamedRow}

theorem upsertAll_concat : upsertAll key upd (news ++ [new]) rows =
    upsertRows key upd new (upsertAll key upd news rows) := by
  rw [upsertAll, List.foldl_append]
  rfl

theorem sameKey_congr (h : ∀ c ∈ key, r c = r' c) : SameKey key new r ↔ SameKey key new r' := by
  refine forall₂_congr fun c hc => ?_
  rw [h c hc]

/-- An update leaves the key as it is. -/
theorem sameKey_update (h : SameKey key r' r) :
    SameKey key new (r.update upd r') ↔ SameKey key new r :=
  sameKey_congr fun _ hc => update_key h hc

theorem update_update : (r.update upd r').update upd new = r.update upd new := by
  funext c
  by_cases hc : c ∈ upd <;> simp [NamedRow.update, hc]

theorem update_same : new.update upd new = new :=
  funext fun _ => ite_self _

/-- After an upsert a row is one that does not match, or has what was set. -/
theorem mem_upsertRows (hnew : ∀ c ∈ key, new c ≠ .null)
    (h : r ∈ upsertRows key upd new rows) :
    (r ∈ rows ∧ ¬ SameKey key new r) ∨ (SameKey key new r ∧ r.update upd new = r) := by
  unfold upsertRows at h
  split at h
  · obtain ⟨r', hr', rfl⟩ := List.mem_map.mp h
    by_cases hsame : SameKey key new r'
    · rw [if_pos hsame]
      exact Or.inr ⟨(sameKey_update hsame).mpr hsame, update_update⟩
    · rw [if_neg hsame]
      exact Or.inl ⟨hr', hsame⟩
  · rename_i hnone
    rcases List.mem_append.mp h with h | h
    · exact Or.inl ⟨h, fun hsame => hnone ⟨r, h, hsame⟩⟩
    · obtain rfl := List.mem_singleton.mp h
      exact Or.inr ⟨fun c hc => ⟨hnew c hc, rfl⟩, update_same⟩

/-- After an upsert there is a row with the key. -/
theorem exists_sameKey_upsertRows (h : (∃ r ∈ rows, SameKey key r' r) ∨
    (r' = new ∧ ∀ c ∈ key, new c ≠ .null)) :
    ∃ r ∈ upsertRows key upd new rows, SameKey key r' r := by
  have hmatched : ∀ r ∈ rows, SameKey key r' r → (∃ r ∈ rows, SameKey key new r) →
      ∃ r ∈ upsertRows key upd new rows, SameKey key r' r := by
    intro r hr hsame hmatch
    rw [upsertRows, if_pos hmatch]
    exact ⟨_, List.mem_map_of_mem hr, (sameKey_congr fun c hc => matched_key hc).mpr hsame⟩
  by_cases hmatch : ∃ r ∈ rows, SameKey key new r
  · rcases h with ⟨r, hr, hsame⟩ | ⟨rfl, -⟩
    · exact hmatched r hr hsame hmatch
    · obtain ⟨r, hr, hsame⟩ := hmatch
      exact hmatched r hr hsame ⟨r, hr, hsame⟩
  · rw [upsertRows, if_neg hmatch]
    rcases h with ⟨r, hr, hsame⟩ | ⟨rfl, hnew⟩
    · exact ⟨r, List.mem_append_left _ hr, hsame⟩
    · exact ⟨r', List.mem_append_right _ (List.mem_singleton_self r'), fun c hc => ⟨hnew c hc, rfl⟩⟩

/-- Upserts that all match change the rows one by one. -/
theorem upsertAll_eq_map (h : ∀ new ∈ news, ∃ r ∈ rows, SameKey key new r) :
    upsertAll key upd news rows =
      rows.map (setAll (SameKey key) (fun new r => r.update upd new) news) := by
  induction news using List.reverseRecOn with
  | nil => exact (List.map_id rows).symm
  | append_singleton news new ih =>
    have hmatch : ∃ r ∈ rows.map (setAll (SameKey key) (fun new r => r.update upd new) news),
        SameKey key new r := by
      obtain ⟨r, hr, hsame⟩ := h new (by simp)
      exact ⟨_, List.mem_map_of_mem hr, (pred_setAll fun _ _ _ => sameKey_update).mpr hsame⟩
    rw [upsertAll_concat, ih fun n hn => h n (List.mem_append_left _ hn), upsertRows,
      if_pos hmatch, List.map_map]
    refine List.map_congr_left fun r _ => ?_
    rw [setAll_concat]
    rfl

section Keyed

variable (hnews : ∀ new ∈ news, ∀ c ∈ key, new c ≠ .null)
include hnews

theorem exists_sameKey_upsertAll :
    ∀ new ∈ news, ∃ r ∈ upsertAll key upd news rows, SameKey key new r := by
  induction news using List.reverseRecOn with
  | nil => simp
  | append_singleton news new ih =>
    intro n hn
    rw [upsertAll_concat]
    refine exists_sameKey_upsertRows ?_
    rcases List.mem_append.mp hn with hn | hn
    · exact Or.inl (ih (fun n hn => hnews n (List.mem_append_left _ hn)) n hn)
    · exact Or.inr ⟨List.mem_singleton.mp hn, hnews new (by simp)⟩

/-- The rows of an upsert are as it set them. -/
theorem setAll_of_mem : ∀ r ∈ upsertAll key upd news rows,
    setAll (SameKey key) (fun new r => r.update upd new) news r = r := by
  induction news using List.reverseRecOn with
  | nil => exact fun _ _ => rfl
  | append_singleton news new ih =>
    intro r hr
    rw [upsertAll_concat] at hr
    rcases mem_upsertRows (hnews new (by simp)) hr with ⟨hr, hne⟩ | ⟨hsame, hfixed⟩
    · rw [setAll_concat, ih (fun n hn => hnews n (List.mem_append_left _ hn)) r hr, if_neg hne]
    · exact setAll_concat_of_fixed (fun _ _ _ => sameKey_update) (fun _ _ _ => update_update)
        hsame hfixed

/-- Twice is as good as once. -/
theorem upsertAll_upsertAll :
    upsertAll key upd news (upsertAll key upd news rows) = upsertAll key upd news rows := by
  rw [upsertAll_eq_map (exists_sameKey_upsertAll hnews)]
  exact (List.map_congr_left (setAll_of_mem hnews)).trans (List.map_id _)

end Keyed

theorem length_le_upsertRows : rows.length ≤ (upsertRows key upd new rows).length := by
  unfold upsertRows
  split
  · rw [List.length_map]
  · rw [List.length_append]
    exact Nat.le_add_right _ _

/-- A new row with a NULL in its key is appended. -/
theorem length_upsertRows_of_null (hc : c ∈ key) (hnull : new c = .null) :
    (upsertRows key upd new rows).length = rows.length + 1 := by
  have hnone : ¬ ∃ r ∈ rows, SameKey key new r := by
    rintro ⟨r, -, hsame⟩
    exact (hsame c hc).1 hnull
  rw [upsertRows, if_neg hnone, List.length_append, List.length_singleton]

/-- No upsert removes a row. -/
theorem length_le_upsertAll : rows.length ≤ (upsertAll key upd news rows).length := by
  induction news using List.reverseRecOn with
  | nil => exact Nat.le_refl _
  | append_singleton news new ih =>
    rw [upsertAll_concat]
    exact ih.trans length_le_upsertRows

/-- An upsert with a NULL in a key leaves one row more. -/
theorem length_lt_upsertAll (hnews : ∃ new ∈ news, ∃ c ∈ key, new c = .null) :
    rows.length < (upsertAll key upd news rows).length := by
  induction news using List.reverseRecOn with
  | nil => simp at hnews
  | append_singleton news new ih =>
    obtain ⟨n, hn, hnull⟩ := hnews
    rw [upsertAll_concat]
    rcases List.mem_append.mp hn with hn | hn
    · exact (ih ⟨n, hn, hnull⟩).trans_le length_le_upsertRows
    · obtain rfl := List.mem_singleton.mp hn
      obtain ⟨c, hc, hnull⟩ := hnull
      rw [length_upsertRows_of_null hc hnull]
      exact Nat.lt_succ_of_le length_le_upsertAll

end Upserts

/-! ## Updates -/

section Updates

variable {E : Type} {columns : List (ColumnDef E)} {table : TableDef E} {e e' : E} {r : NamedRow}

theorem entityRow_other {name : String} (h : ∀ c ∈ columns, c.name ≠ name) :
    entityRow columns e r name = r name := by
  have hnone : columns.find? (·.name = name) = none :=
    List.find?_eq_none.mpr fun c hc => by simpa using h c hc
  rw [entityRow, hnone]
  rfl

/-- An entity that is written again changes nothing. -/
theorem entityRow_entityRow :
    entityRow columns e (entityRow columns e' r) = entityRow columns e r := by
  funext name
  unfold entityRow
  cases columns.find? (·.name = name) <;> rfl

theorem hasKey_entityRow (hnames : table.columnNames.Nodup) :
    HasKey table e (entityRow table.nonPkColumns e' r) ↔ HasKey table e r := by
  refine forall₂_congr fun c hc => ?_
  have hother : ∀ c' ∈ table.nonPkColumns, c'.name ≠ c.name := by
    intro c' hc' hname
    obtain ⟨hmem, hpk⟩ := List.mem_filter.mp hc
    obtain ⟨hmem', hpk'⟩ := List.mem_filter.mp hc'
    obtain rfl := List.inj_on_of_nodup_map hnames hmem' hmem hname
    rw [hpk] at hpk'
    contradiction
  rw [entityRow_other hother]

end Updates

/-! ## Operations -/

namespace BatchOperation

variable {schema : Schema}

/-- Sent again, the operation changes nothing. -/
def Repeatable (schema : Schema) : BatchOperation → Prop
  | insertMany _ entities _ => entities = []
  | deleteMany _ _ _ _ => True
  | updateMany _ _ _ => True
  | upsertMany table entities conflictColumns _ => ∀ e ∈ entities,
    ∀ c ∈ table.conflictColumns conflictColumns,
      entityRow table.columns e (schema.defaults table.name) c ≠ .null

/-- The columns of the table. -/
def columnNames : BatchOperation → List String
  | insertMany table _ _ => table.columnNames
  | deleteMany table _ _ _ => table.columnNames
  | updateMany table _ _ => table.columnNames
  | upsertMany table _ _ _ => table.columnNames

theorem effectRows_upsertMany {E : Type} (table : TableDef E) (entities : List E)
    (conflictColumns updateColumns : List String) (rows : List NamedRow) :
    (upsertMany table entities conflictColumns updateColumns).effectRows schema rows =
      upsertAll (table.conflictColumns conflictColumns)
        (table.updateColumns (table.conflictColumns conflictColumns) updateColumns)
        (entities.map fun e => entityRow table.columns e (schema.defaults table.name)) rows := by
  rw [upsertAll, List.foldl_map]
  rfl

theorem effectRows_updateMany {E : Type} (table : TableDef E) (entities : List E) (chunkSize : ℕ)
    (rows : List NamedRow) : (updateMany table entities chunkSize).effectRows schema rows =
      rows.map (setAll (HasKey table) (entityRow table.nonPkColumns) entities) :=
  foldl_maps (fun e r => if HasKey table e r then entityRow table.nonPkColumns e r else r)
    entities rows

/-- Twice is as good as once. -/
theorem effectRows_effectRows {op : BatchOperation} (h : op.Repeatable schema)
    (hnames : op.columnNames.Nodup) (rows : List NamedRow) :
    op.effectRows schema (op.effectRows schema rows) = op.effectRows schema rows := by
  cases op with
  | insertMany table entities chunkSize =>
    obtain rfl : entities = [] := h
    simp only [effectRows, List.map_nil, List.append_nil]
  | deleteMany table toBoundValue ids chunkSize =>
    simp only [effectRows]
    rcases table.pkColumns with _ | ⟨pk, _ | ⟨pk', pks⟩⟩
    · rfl
    · simp only [List.filter_filter, Bool.and_self]
    · rfl
  | updateMany table entities chunkSize =>
    rw [effectRows_updateMany, effectRows_updateMany, List.map_map]
    refine List.map_congr_left fun r _ => ?_
    exact setAll_setAll (fun _ _ _ _ => hasKey_entityRow hnames) fun _ _ _ => entityRow_entityRow
  | upsertMany table entities conflictColumns updateColumns =>
    rw [effectRows_upsertMany, effectRows_upsertMany]
    exact upsertAll_upsertAll (List.forall_mem_map.mpr h)

/-- Without that, there are more rows every time. -/
theorem length_lt_effectRows {op : BatchOperation} (h : ¬ op.Repeatable schema)
    (rows : List NamedRow) : rows.length < (op.effectRows schema rows).length := by
  cases op with
  | insertMany table entities chunkSize =>
    have hne : 0 < entities.length := List.length_pos_iff.mpr h
    simp only [effectRows, List.length_append, List.length_map]
    exact Nat.lt_add_of_pos_right hne
  | deleteMany table toBoundValue ids chunkSize => exact absurd trivial h
  | updateMany table entities chunkSize => exact absurd trivial h
  | upsertMany table entities conflictColumns updateColumns =>
    simp only [Repeatable, not_forall, not_not] at h
    obtain ⟨e, he, c, hc, hnull⟩ := h
    rw [effectRows_upsertMany]
    exact length_lt_upsertAll ⟨_, List.mem_map_of_mem he, c, hc, hnull⟩

/-- Requests on one table change that table alone. -/
theorem iterate_effect (op : BatchOperation) (n : ℕ) (tables : Tables) :
    (op.effect schema)^[n] tables =
      Function.update tables op.tableName ((op.effectRows schema)^[n] (tables op.tableName)) := by
  induction n with
  | zero => exact (Function.update_eq_self op.tableName tables).symm
  | succ n ih =>
    rw [Function.iterate_succ_apply', ih, effect, Function.update_self, Function.update_idem,
      Function.iterate_succ_apply']

end BatchOperation

/-! ## Requests -/

section Requests

variable {d : Dialect} {schema : Schema} {kind : ServerKind} {db : Database Tables}
  {tables : Tables} {op : BatchOperation} {rs : List (BatchRequest d schema)}

/-- Requests of one operation have its effect as often as they return. -/
theorem BatchRequest.serveAll_repeat (hrs : ∀ r ∈ rs, r.op = op) (hdb : db.store.Settled tables) :
    (serveAll kind db rs).store.Settled
      ((op.effect schema)^[(returning kind db rs).length] tables) := by
  induction rs generalizing db tables with
  | nil => exact hdb
  | cons r rs ih =>
    have hop : r.op = op := hrs r List.mem_cons_self
    have hserve : (r.serve kind db).store.Settled _ := r.serve_settled hdb
    have hall := ih (fun r hr => hrs r (List.mem_cons_of_mem _ hr)) hserve
    unfold returning
    cases hrun : (r.run kind db).1 with
    | error e =>
      rw [hrun] at hall
      exact hall
    | ok u =>
      rw [hrun, outcome, hop] at hall
      exact hall

end Requests

end CppLinq
