import CppLinq.SqlGenerator

/-!
# What a generation records

A step of the generator adds slots to the context and returns a text, and that text
depends on the context only through the counter (`Records`). A tree is therefore a
`Template` (`template`), and a step that visits several trees writes their templates one
after another (`Writes`), except at two kinds of node (`ExprNode.KeepsOrder`) : an `IN`
over an empty list, which drops a text, and on SQL Server the date addition, which swaps
two.

`Writes` has one rule for `bind` and one for `pure`, so a fact about a function of the
generator is one application of them for each of its steps.
-/

namespace CppLinq

open Template

/-! ## Recorded slots -/

/-- The value of a static slot. -/
def ParameterSlot.value? : ParameterSlot → Option BoundValue
  | .static v => some v
  | .dynamic _ => none

/-- The values of the static slots, in order. -/
def staticValues (slots : List ParameterSlot) : List BoundValue :=
  slots.filterMap ParameterSlot.value?

@[simp] theorem staticValues_append (S S' : List ParameterSlot) :
    staticValues (S ++ S') = staticValues S ++ staticValues S' := by
  simp [staticValues]

@[simp] theorem staticValues_map_static (vs : List BoundValue) :
    staticValues (vs.map .static) = vs := by
  simp [staticValues, ParameterSlot.value?, List.filterMap_map, Function.comp_def]

@[simp] theorem Context.paramCounter_start (k : ℕ) : (Context.start k).paramCounter = k :=
  rfl

/-- The context after the slots `S` have been recorded. -/
def Context.record (c : Context) (S : List ParameterSlot) : Context :=
  ⟨c.params ++ staticValues S, c.slots ++ S, c.paramCounter + S.length⟩

@[simp] theorem Context.record_nil (c : Context) : c.record [] = c := by
  simp [record, staticValues]

/-- Slots are recorded one after another. -/
@[simp] theorem Context.record_record (c : Context) (S S' : List ParameterSlot) :
    (c.record S).record S' = c.record (S ++ S') := by
  simp [record, Nat.add_assoc]

/-- The counter counts the slots. -/
@[simp] theorem Context.paramCounter_record (c : Context) (S : List ParameterSlot) :
    (c.record S).paramCounter = c.paramCounter + S.length :=
  rfl

/-- `g` records the slots `S`, and its text depends on the counter alone. -/
def Records (g : Gen Text) (S : List ParameterSlot) : Prop :=
  ∃ text : ℕ → Text, ∀ c, g c = (text c.paramCounter, c.record S)

theorem records_nextPlaceholder_dynamic (i : ℕ) :
    Records (nextPlaceholder (.dynamic i)) [.dynamic i] :=
  ⟨placeholder, fun c => by
    have hs : staticValues [.dynamic i] = [] := rfl
    rw [Context.record, hs, List.append_nil]
    rfl⟩

theorem records_visitLiteral (v : BoundValue) : Records (visitLiteral v) [.static v] :=
  ⟨placeholder, fun _ => rfl⟩

/-- The template of a tree : its leaves, and its text from any counter. -/
def template (d : Dialect) (n : ExprNode) : Template ParameterSlot :=
  ⟨n.leaves, fun k => (visit d n (Context.start k)).1⟩

@[simp] theorem template_slots (d : Dialect) (n : ExprNode) : (template d n).slots = n.leaves :=
  rfl

/-- `g` records the slots of `Ts`. Where `ordered` holds, the holes of its text are `pre`
and then those of `Ts`. -/
def Writes (ordered : Prop) (pre : List ℕ) (g : Gen Text)
    (Ts : List (Template ParameterSlot)) : Prop :=
  ∃ text : ℕ → Text, (∀ c, g c = (text c.paramCounter, c.record (Ts.flatMap slots))) ∧
    (ordered → ∀ k, holes (text k) = pre ++ seqHoles Ts k)

section Rules

variable {ordered : Prop} {pre : List ℕ} {g : Gen Text} {h : Text → Gen Text}
  {Ts Us : List (Template ParameterSlot)}

/-- A text without holes writes no tree. -/
theorem writes_pure {t : Text} (ht : ordered → holes t = pre) : Writes ordered pre (pure t) [] :=
  ⟨fun _ => t, fun c => by rw [List.flatMap_nil, Context.record_nil]; rfl,
    fun ho _ => by simp [ht ho, seqHoles]⟩

/-- Two generations write their trees in order. -/
theorem Writes.bind (hg : Writes ordered [] g Ts)
    (hh : ∀ t, Writes ordered (pre ++ holes t) (h t) Us) :
    Writes ordered pre (g >>= h) (Ts ++ Us) := by
  obtain ⟨text, hg, hgh⟩ := hg
  choose text' hh hhh using hh
  refine ⟨fun k => text' (text k) (k + slotCount Ts), fun c => ?_, fun ho k => ?_⟩
  · have hrun : (g >>= h) c = h (g c).1 (g c).2 := rfl
    rw [hrun, hg, hh, Context.record_record, Context.paramCounter_record, List.flatMap_append]
    rfl
  · rw [hhh _ ho, hgh ho, seqHoles_append]
    simp

theorem Writes.of_eq (hg : Writes ordered pre g Ts) (hT : Ts = Us) : Writes ordered pre g Us :=
  hT ▸ hg

/-- What is written is recorded. -/
theorem Writes.records (hg : Writes ordered pre g Ts) : Records g (Ts.flatMap slots) :=
  let ⟨text, hg, _⟩ := hg
  ⟨text, hg⟩

/-- A visit that records its leaves writes its tree. -/
theorem Records.writes {d : Dialect} {n : ExprNode} (hn : Records (visit d n) n.leaves) :
    Writes ordered [] (visit d n) [template d n] := by
  obtain ⟨text, hn⟩ := hn
  refine ⟨text, fun c => by simpa using hn c, fun _ k => ?_⟩
  simp [seqHoles, template, hn]

/-- A clause over a list whose items write `Ts`. -/
theorem Writes.listClause {α : Type*} {whenEmpty before after : Text} {items : List α}
    (hg : Writes ordered [] g Ts) (hTs : items = [] → Ts = [])
    (hwhen : holes whenEmpty = [] := by simp) (hbefore : holes before = [] := by simp)
    (hafter : holes after = [] := by simp) :
    Writes ordered [] (listClause whenEmpty before after items g) Ts := by
  cases items with
  | nil =>
    obtain rfl := hTs rfl
    obtain ⟨_, hg, _⟩ := hg
    refine ⟨fun _ => whenEmpty, fun c => ?_, fun _ _ => by simp [hwhen, seqHoles]⟩
    have hrun : CppLinq.listClause whenEmpty before after ([] : List α) g c =
      (whenEmpty, (g c).2) := rfl
    rw [hrun, hg]
  | cons i items =>
    have h : Writes ordered [] (CppLinq.listClause whenEmpty before after (i :: items) g)
        (Ts ++ []) :=
      hg.bind fun _ => writes_pure fun _ => by simp [hbefore, hafter]
    simpa using h

end Rules

/-! ## Texts without holes -/

@[simp] theorem holes_quoteId (d : Dialect) (id : String) : holes (d.quoteId id) = [] := by
  have h : ∀ o c, holes (quoteWith o c id) = [] := by
    intro o c
    simp only [quoteWith, holes_cons_chr, holes_append, holes_nil, List.append_nil]
    induction id.toList with
    | nil => rfl
    | cons a as ih =>
      rw [List.flatMap_cons, holes_append, ih]
      split <;> rfl
  cases d <;> exact h _ _

@[simp] theorem holes_notWord (isNot : Bool) (word : String) : holes (notWord isNot word) = [] :=
  holes_lit _

@[simp] theorem holes_columnList (d : Dialect) (columns : List String) :
    holes (d.columnList columns) = [] :=
  holes_joinSep_of_forall (holes_lit _) (by simp)

@[simp] theorem holes_selectFrom (d : Dialect) (whenEmpty : String) (isDistinct : Bool)
    (columns : List String) (tableName : String) :
    holes (selectFrom d whenEmpty isDistinct columns tableName) = [] := by
  have h : holes (selectList d whenEmpty columns) = [] := by
    unfold selectList
    split <;> simp
  simp [selectFrom, distinctWord, h]

/-- Names and words have no holes. -/
@[simp] theorem holes_columnSql (d : Dialect) (ref : ColumnRef) : holes (columnSql d ref) = [] := by
  unfold columnSql
  split <;> simp

/-- The part of a date has the holes of the date. -/
@[simp] theorem holes_extractPartFunc (d : Dialect) (part : DatePart) (t : Text) :
    holes (d.extractPartFunc part.sql t) = holes t := by
  cases d <;> cases part <;>
    simp [Dialect.extractPartFunc, DatePart.sql, Dialect.strftimePart, Dialect.informixPart]

/-- The date addition keeps the order of its operands, SQL Server's apart. -/
theorem holes_dateAddDaysFunc (d : Dialect) (t u : Text) :
    holes (d.dateAddDaysFunc t u) =
      if d = .mssql then holes u ++ holes t else holes t ++ holes u := by
  cases d <;> simp [Dialect.dateAddDaysFunc]

/-! ## Every tree is a template -/

/-- The node writes the texts of its subtrees in visiting order. -/
def ExprNode.KeepsOrder (d : Dialect) : ExprNode → Prop
  | .inList _ [] _ => False
  | .dateAdd _ _ => d ≠ .mssql
  | _ => True

section Trees

variable {d : Dialect} {ordered : Prop}

theorem writes_visitOption {before whenNone : String} {e : Option ExprNode}
    (h : ∀ n ∈ e.toList, Records (visit d n) n.leaves) :
    Writes ordered [] (visitOption d before whenNone e) (e.toList.map (template d)) := by
  cases e with
  | none => exact writes_pure fun _ => holes_lit _
  | some e =>
    have he : Writes ordered [] (visit d e) [template d e] := (h e (by simp)).writes
    exact he.bind fun _ => writes_pure fun _ => by simp

/-- Trees with commas are written in order. -/
theorem writes_visitList :
    ∀ {es : List ExprNode}, (∀ n ∈ es, Records (visit d n) n.leaves) →
      Writes ordered [] (visitList d es) (es.map (template d))
  | [], _ => writes_pure fun _ => rfl
  | [e], h => (h e (by simp)).writes
  | e :: f :: es, h =>
    have he : Writes ordered [] (visit d e) [template d e] := (h e (by simp)).writes
    have hes : Writes ordered [] (visitList d (f :: es)) ((f :: es).map (template d)) :=
      writes_visitList fun n hn => h n (by simp [hn])
    (he.bind fun _ => hes.bind fun _ => writes_pure fun _ => by simp).of_eq (by simp)

theorem writes_visitOrderBy :
    ∀ {os : List OrderByExpr}, (∀ n ∈ os.map Prod.fst, Records (visit d n) n.leaves) →
      Writes ordered [] (visitOrderBy d os) ((os.map Prod.fst).map (template d))
  | [], _ => writes_pure fun _ => rfl
  | [(e, _)], h =>
    have he : Writes ordered [] (visit d e) [template d e] := (h e (by simp)).writes
    he.bind fun _ => writes_pure fun _ => by simp
  | (e, _) :: o :: os, h =>
    have he : Writes ordered [] (visit d e) [template d e] := (h e (by simp)).writes
    have hos : Writes ordered [] (visitOrderBy d (o :: os))
        (((o :: os).map Prod.fst).map (template d)) :=
      writes_visitOrderBy fun n hn => h n (by simp at hn ⊢; tauto)
    (he.bind fun _ => hos.bind fun _ => writes_pure fun _ => by simp).of_eq (by simp)

theorem writes_windowCall {func : WindowFunctionType} {arg : Option ExprNode}
    (h : ∀ n ∈ (ExprNode.windowArg func arg).toList, Records (visit d n) n.leaves) :
    Writes ordered [] (windowCall (fun whenNone => visitOption d "" whenNone arg) func)
      ((ExprNode.windowArg func arg).toList.map (template d)) := by
  cases func with
  | rowNumber | rank | denseRank => exact writes_pure fun _ => holes_lit _
  | _ => exact ((writes_visitOption h).bind fun _ => writes_pure fun _ => by simp).of_eq (by simp)

/-- A node without value writes its subtrees, in order where it keeps order. -/
theorem visit_writes_of_children {n : ExprNode} (hn : n.slot? = none)
    (h : ∀ m ∈ n.children, Records (visit d m) m.leaves) :
    Writes (n.KeepsOrder d) [] (visit d n) (n.children.map (template d)) := by
  have hw : ∀ m ∈ n.children, Writes (n.KeepsOrder d) [] (visit d m) [template d m] :=
    fun m hm => (h m hm).writes
  cases n with
  | columnRef _ | currentTimestamp | currentDate => exact writes_pure fun _ => by simp
  | literal _ | paramPlaceholder _ => simp [ExprNode.slot?] at hn
  | binary l _ r | logic l _ r | like l r _ =>
    have hl := hw l (by simp [ExprNode.children])
    have hr := hw r (by simp [ExprNode.children])
    exact hl.bind fun _ => hr.bind fun _ => writes_pure fun _ => by simp
  | dateAdd e days =>
    have he := hw e (by simp [ExprNode.children])
    have hdays := hw days (by simp [ExprNode.children])
    refine he.bind fun _ => hdays.bind fun _ => writes_pure fun ho => ?_
    rw [holes_dateAddDaysFunc, if_neg ho, List.nil_append]
  | unary op e =>
    have he := hw e (by simp [ExprNode.children])
    cases op <;> exact he.bind fun _ => writes_pure fun _ => by simp
  | extract _ e =>
    have he := hw e (by simp [ExprNode.children])
    exact he.bind fun _ => writes_pure fun _ => by simp
  | between e low high _ =>
    have he := hw e (by simp [ExprNode.children])
    have hlow := hw low (by simp [ExprNode.children])
    have hhigh := hw high (by simp [ExprNode.children])
    exact he.bind fun _ => hlow.bind fun _ => hhigh.bind fun _ => writes_pure fun _ => by simp
  | inList e values _ =>
    have he := hw e (by simp [ExprNode.children])
    cases values with
    | nil => exact he.bind fun _ => writes_pure fun ho => ho.elim
    | cons v vs =>
      have hvs : ∀ m ∈ v :: vs, Records (visit d m) m.leaves := fun m hm =>
        h m (List.mem_cons_of_mem e hm)
      exact (he.bind fun _ => (writes_visitList hvs).bind fun _ => writes_pure fun _ => by
        simp).of_eq (by simp [ExprNode.children])
  | function _ args =>
    exact ((writes_visitList h).bind fun _ => writes_pure fun _ => by simp).of_eq
      (by simp [ExprNode.children])
  | subquery _ | existsSub _ _ =>
    exact ((writes_visitOption h).bind fun _ => writes_pure fun _ => by simp).of_eq
      (by simp [ExprNode.children])
  | inSubquery e sub _ =>
    have he := hw e (by simp [ExprNode.children])
    have hsub : ∀ m ∈ sub.where_.toList, Records (visit d m) m.leaves := fun m hm =>
      h m (List.mem_cons_of_mem e hm)
    exact (he.bind fun _ => (writes_visitOption hsub).bind fun _ =>
      writes_pure fun _ => by simp).of_eq (by simp [ExprNode.children])
  | window func arg ps os =>
    have harg := fun m hm => h m (List.mem_append_left _ (List.mem_append_left _ hm))
    have hps := fun m hm => h m (List.mem_append_left _ (List.mem_append_right _ hm))
    have hos := fun m hm => h m (List.mem_append_right _ hm)
    exact ((writes_windowCall harg).bind fun _ =>
      ((writes_visitList hps).listClause (by simp)).bind fun _ =>
      ((writes_visitOrderBy hos).listClause (by simp)).bind fun _ =>
      writes_pure fun _ => by simp).of_eq (by simp [ExprNode.children])

/-- Visiting a tree records its leaves. -/
theorem visit_records (d : Dialect) (n : ExprNode) : Records (visit d n) n.leaves := by
  induction n using ExprNode.children_induction with
  | step n ih =>
    cases hs : n.slot? with
    | none =>
      rw [ExprNode.leaves_eq, hs]
      simpa [List.flatMap_map] using (visit_writes_of_children hs ih).records
    | some s =>
      cases n with
      | literal v =>
        rw [ExprNode.leaves_eq]
        exact records_visitLiteral v
      | paramPlaceholder i =>
        rw [ExprNode.leaves_eq]
        exact records_nextPlaceholder_dynamic i
      | _ => simp [ExprNode.slot?] at hs

end Trees

end CppLinq
