import CppLinq.QueryBuilder
import CppLinq.SlotCorrespondence

/-!
# Direct terminals

The terminals that execute at once (`Terminal`). All of them generate a statement, run it
directly if it has no parameters, and otherwise prepare it, bind the parameters to the
positions `0, 1, 2, …` and run it (`Terminal.run`).

The parameters are the static slots alone, so a position is bound the value of its slot
only as long as no dynamic slot comes before (`terminal_binds_iff`) : the terminals neither
reject a placeholder nor skip its position.
-/

namespace CppLinq

/-- The options of `stream` that reach the statement. -/
structure ExecutionOptions where
  queryTimeoutSeconds : Option ℕ := none
  stopToken : Bool := false
  deriving DecidableEq, Repr

/-- A terminal of a builder that executes its statement at once. -/
inductive Terminal
  | toList (q : QueryBuilder)
  | stream (q : QueryBuilder) (options : ExecutionOptions)
  | first (q : QueryBuilder)
  | count (q : QueryBuilder)
  | countDistinct (q : QueryBuilder) (column : ExprNode)
  | avg (q : QueryBuilder) (column : ExprNode)
  | sum (q : QueryBuilder) (column : ExprNode)
  | minVal (q : QueryBuilder) (column : ExprNode)
  | maxVal (q : QueryBuilder) (column : ExprNode)
  | exists (q : QueryBuilder)
  | update (q : QueryBuilder) (assignments : List AssignExpr)
  | remove (q : QueryBuilder)
  | joinedToList (q : JoinedQueryBuilder)
  | joinedFirst (q : JoinedQueryBuilder)
  | joinedCount (q : JoinedQueryBuilder)
  | joined3ToList (q : Joined3QueryBuilder)
  | joined3First (q : Joined3QueryBuilder)
  | joined3Count (q : Joined3QueryBuilder)
  | setOpToList (q : SetOpQueryBuilder)
  | setOpFirst (q : SetOpQueryBuilder)
  | setOpCount (q : SetOpQueryBuilder)

namespace Terminal

/-- The statement a terminal asks for. `first` sets the limit to 1 while it runs. -/
def generateCall : Terminal → Except Exn GenerateCall
  | .toList q => .ok q.selectCall
  | .stream q _ => .ok q.selectCall
  | .first q => .ok { q with limit := some 1 }.selectCall
  | .count q => .ok q.countCall
  | .countDistinct q column => q.countDistinctCall column
  | .avg q column => q.aggregateCall "AVG" column
  | .sum q column => q.aggregateCall "SUM" column
  | .minVal q column => q.aggregateCall "MIN" column
  | .maxVal q column => q.aggregateCall "MAX" column
  | .exists q => .ok q.existsCall
  | .update q assignments => .ok (q.updateCall assignments)
  | .remove q => .ok q.removeCall
  | .joinedToList q => .ok q.selectCall
  | .joinedFirst q => .ok { q with limit := some 1 }.selectCall
  | .joinedCount q => .ok q.countCall
  | .joined3ToList q => .ok q.selectCall
  | .joined3First q => .ok { q with limit := some 1 }.selectCall
  | .joined3Count q => .ok q.countCall
  | .setOpToList q => .ok q.selectCall
  | .setOpFirst q => .ok { q with limit := some 1 }.selectCall
  | .setOpCount q => .ok q.countCall

/-- The statement a terminal generates. -/
def generated (d : Dialect) (t : Terminal) : Except Exn GeneratedSql := do
  generate d (← t.generateCall)

/-- The options a terminal runs with. Only `stream` has any. -/
def options : Terminal → ExecutionOptions
  | .stream _ options => options
  | _ => {}

/-- The calls that hand the options to a statement. -/
def optionCalls (options : ExecutionOptions) : List DriverCall :=
  (options.queryTimeoutSeconds.toList.map .setTimeout) ++
    if options.stopToken then [.setStopToken] else []

/-- The terminal changes rows and reads none. -/
def nonQuery : Terminal → Bool
  | .update _ _ | .remove _ => true
  | _ => false

/-- The call that executes a text without parameters. -/
def executeDirect (t : Terminal) (sql : Text) : DriverCall :=
  if t.nonQuery then .executeNonQueryDirect sql else .executeQueryDirect sql

/-- The call that executes a prepared text. -/
def executePrepared (t : Terminal) : DriverCall :=
  if t.nonQuery then .executeNonQuery else .executeQuery

/-- Run a terminal. -/
def run (driver : Driver) (d : Dialect) (t : Terminal) : Session Unit := do
  let r ← t.generated d
  if r.params.isEmpty && optionCalls t.options = [] then
    call driver (t.executeDirect r.sql)
  else
    call driver (.prepare r.sql)
    callAll driver (optionCalls t.options)
    callAll driver (bindCalls 0 r.params)
    call driver t.executePrepared

/-- The calls a terminal makes for its statement. -/
def calls (t : Terminal) (r : GeneratedSql) : List DriverCall :=
  if r.params.isEmpty && optionCalls t.options = [] then [t.executeDirect r.sql]
  else .prepare r.sql :: (optionCalls t.options ++ (bindCalls 0 r.params ++ [t.executePrepared]))

variable {driver : Driver} {d : Dialect} {t : Terminal} {r : GeneratedSql}

theorem run_eq (h : t.generated d = .ok r) : t.run driver d = callAll driver (t.calls r) := by
  have hrun : t.run driver d = if r.params.isEmpty && optionCalls t.options = [] then
      call driver (t.executeDirect r.sql)
    else (do
      call driver (.prepare r.sql)
      callAll driver (optionCalls t.options)
      callAll driver (bindCalls 0 r.params)
      call driver t.executePrepared) := by
    unfold run
    rw [h]
    rfl
  rw [hrun, calls]
  split
  · rw [callAll_singleton]
  · rw [callAll, callAll_append, callAll_append, callAll_singleton]

theorem run_of_error {e : Exn} (h : t.generated d = .error e) (log : List DriverCall) :
    t.run driver d log = (.error e, log) := by
  unfold run
  rw [h]
  rfl

theorem bind_mem_calls {k : ℕ} {v : BoundValue} :
    .bind k v ∈ t.calls r ↔ r.params[k]? = some v := by
  have hexec : t.executePrepared ≠ .bind k v := by
    unfold executePrepared
    split <;> simp
  have hdirect : t.executeDirect r.sql ≠ .bind k v := by
    unfold executeDirect
    split <;> simp
  have hoptions : .bind k v ∉ optionCalls t.options := by
    unfold optionCalls
    split <;> simp
  unfold calls
  split
  · rename_i hparams
    obtain ⟨hparams, -⟩ := (Bool.and_eq_true _ _).mp hparams
    rw [List.isEmpty_iff] at hparams
    simp [hparams, hdirect.symm]
  · simp [hoptions, hexec.symm, mem_bindCalls]

end Terminal

/-! ## Which values reach their placeholders -/

/-- The terminal throws before it executes anything, or binds to every position it binds
the value of the slot with that position. -/
def Terminal.BindsOwnSlots (driver : Driver) (d : Dialect) (t : Terminal) : Prop :=
  (∃ e, (t.run driver d []).1 = .error e ∧ ∀ c ∈ (t.run driver d []).2, ¬ c.Executes) ∨
    ∃ r, t.generated d = .ok r ∧
      ∀ k v, .bind k v ∈ (t.run driver d []).2 → r.slots[k]? = some (.static v)

/-- No static slot comes after a dynamic one. -/
def LiteralsFirst (S : List ParameterSlot) : Prop :=
  ∀ A i B, S = A ++ .dynamic i :: B → staticValues B = []

theorem literalsFirst_cons_static {v : BoundValue} {S : List ParameterSlot} :
    LiteralsFirst (.static v :: S) ↔ LiteralsFirst S := by
  constructor
  · intro h A i B hS
    exact h (.static v :: A) i B (by rw [hS, List.cons_append])
  · intro h A i B hS
    cases A with
    | nil => simp at hS
    | cons a A => exact h A i B (List.cons.inj hS).2

theorem literalsFirst_cons_dynamic {i : ℕ} {S : List ParameterSlot} :
    LiteralsFirst (.dynamic i :: S) ↔ staticValues S = [] := by
  constructor
  · intro h
    exact h [] i S rfl
  · intro h A j B hS
    have hmem : staticValues (.dynamic i :: S) = [] := h
    rw [hS, staticValues_append, List.append_eq_nil_iff] at hmem
    exact hmem.2

/-- The static values stand at the positions of their slots iff no dynamic slot comes
before any of them. -/
theorem staticValues_getElem?_iff {S : List ParameterSlot} :
    (∀ (k : ℕ) (v : BoundValue), (staticValues S)[k]? = some v → S[k]? = some (.static v)) ↔
      LiteralsFirst S := by
  induction S with
  | nil =>
    refine ⟨fun _ A i B h => ?_, fun _ k v h => ?_⟩
    · simp at h
    · simp [staticValues] at h
  | cons s S ih =>
    cases s with
    | static w =>
      have hcons : staticValues (.static w :: S) = w :: staticValues S := rfl
      rw [literalsFirst_cons_static, ← ih, hcons]
      constructor
      · intro h k v hv
        exact h (k + 1) v hv
      · rintro h (_ | k) v hv
        · simpa using hv
        · exact h k v hv
    | dynamic i =>
      have hcons : staticValues (.dynamic i :: S) = staticValues S := rfl
      rw [literalsFirst_cons_dynamic, hcons]
      constructor
      · intro h
        cases hS : staticValues S with
        | nil => rfl
        | cons v vs => exact absurd (h 0 v (by rw [hS]; rfl)) (by simp)
      · intro h k v hv
        simp [h] at hv

/-- The limit of a call, where it pages. -/
def GenerateCall.limit? : GenerateCall → Option ℕ
  | .cteSelect _ _ _ _ _ limit _ _ _ _ => limit
  | .select _ _ _ _ limit _ _ _ _ => limit
  | .joinedSelect _ _ _ _ _ _ limit _ _ => limit
  | .setOperation _ _ _ _ _ _ limit _ => limit
  | _ => none

/-- SQL Server has no limit of zero rows. -/
def GenerateCall.Rejected (d : Dialect) (call : GenerateCall) : Prop :=
  d = .mssql ∧ call.limit? = some 0

theorem limitOffset_eq_error_iff {d : Dialect} {limit offset : Option ℕ} :
    (∃ e, d.limitOffset limit offset = .error e) ↔ d = .mssql ∧ limit = some 0 := by
  cases d with
  | mssql =>
    by_cases h : limit = some 0
    · simp [Dialect.limitOffset, h]
    · simp [Dialect.limitOffset, h]
  | _ => simp [Dialect.limitOffset]

/-- Paging is all that a statement with trees can be rejected for. -/
theorem generate_eq_error_iff {d : Dialect} {call : GenerateCall} (hcall : call.HasTrees) :
    (∃ e, generate d call = .error e) ↔ call.Rejected d := by
  have hbind : ∀ {limit offset : Option ℕ} {f : String → GeneratedSql},
      (∃ e, (d.limitOffset limit offset).bind (fun p => .ok (f p)) = .error e) ↔
        d = .mssql ∧ limit = some 0 := by
    intro limit offset f
    have hiff : (∃ e, d.limitOffset limit offset = .error e) ↔ d = .mssql ∧ limit = some 0 :=
      limitOffset_eq_error_iff
    rw [← hiff]
    cases d.limitOffset limit offset <;> simp [Except.bind]
  cases call with
  | cteSelect => exact hbind
  | select => exact hbind
  | joinedSelect => exact hbind
  | setOperation => exact hbind
  | setOperationCount =>
    simp [generate, generateSetOperationCount, generateSetOperation, d.limitOffset_none,
      GenerateCall.Rejected, GenerateCall.limit?]
  | upsert => exact hcall.elim
  | _ => simp [generate, GenerateCall.Rejected, GenerateCall.limit?]

theorem columnNameOf_ok_bind {terminal : String} {column : ExprNode} {f : String → GenerateCall}
    {call : GenerateCall} (h : (do return f (← QueryBuilder.columnNameOf terminal column) :
      Except Exn GenerateCall) = .ok call) : ∃ name, call = f name := by
  cases hname : QueryBuilder.columnNameOf terminal column with
  | error e => rw [hname] at h; contradiction
  | ok name =>
    rw [hname] at h
    injection h with h
    exact ⟨name, h.symm⟩

theorem Terminal.generateCall_hasTrees {t : Terminal} {call : GenerateCall}
    (h : t.generateCall = .ok call) : call.HasTrees := by
  cases t with
  | toList q | stream q _ | first q =>
    injection h with h
    rw [← h]
    exact QueryBuilder.selectCall_hasTrees _
  | countDistinct q column | avg q column | sum q column | minVal q column | maxVal q column =>
    obtain ⟨name, rfl⟩ := columnNameOf_ok_bind h
    trivial
  | _ =>
    injection h with h
    rw [← h]
    trivial

/-- A terminal binds values to their own placeholders, whatever the driver does, iff its
statement is rejected or has no literal after a parameter placeholder. -/
theorem terminal_binds_iff (d : Dialect) (t : Terminal) :
    (∀ driver, t.BindsOwnSlots driver d) ↔ ∀ call, t.generateCall = .ok call →
      call.Rejected d ∨ LiteralsFirst (call.trees.flatMap ExprNode.leaves) := by
  cases hcall : t.generateCall with
  | error e =>
    have hgen : t.generated d = .error e := by rw [Terminal.generated, hcall]; rfl
    refine ⟨fun _ call h => by contradiction, fun _ driver => Or.inl ⟨e, ?_⟩⟩
    simp [Terminal.run_of_error hgen]
  | ok call =>
    have hgen : t.generated d = generate d call := by rw [Terminal.generated, hcall]; rfl
    have htrees := Terminal.generateCall_hasTrees hcall
    cases hr : generate d call with
    | error e =>
      rw [hr] at hgen
      have hrej := (generate_eq_error_iff htrees).mp ⟨e, hr⟩
      refine ⟨fun _ c h => ?_, fun _ driver => Or.inl ⟨e, ?_⟩⟩
      · injection h with h
        exact Or.inl (h ▸ hrej)
      · simp [Terminal.run_of_error hgen]
    | ok r =>
      rw [hr] at hgen
      have hrej : ¬ call.Rejected d := by
        rw [← generate_eq_error_iff htrees, hr]
        simp
      have hwritten := generate_writtenFrom htrees hr
      have hslots : call.trees.flatMap ExprNode.leaves = r.slots := by
        rw [hwritten.slots_eq, List.flatMap_map]
        rfl
      have hparams := hwritten.params_eq
      constructor
      · intro h c hc
        injection hc with hc
        subst hc
        refine Or.inr ?_
        rw [hslots, ← staticValues_getElem?_iff, ← hparams]
        intro k v hv
        -- the accepting driver gets every call of the terminal
        rcases h .accepting with ⟨e, he, -⟩ | ⟨r', hr', hbind⟩
        · rw [Terminal.run_eq hgen, callAll_accepting] at he
          contradiction
        · obtain rfl : r' = r := by
            rw [hgen] at hr'
            injection hr' with hr'
            exact hr'.symm
          refine hbind k v ?_
          rw [Terminal.run_eq hgen, callAll_accepting, List.nil_append]
          exact Terminal.bind_mem_calls.mpr hv
      · intro h driver
        have hfirst := (h call rfl).resolve_left hrej
        rw [hslots, ← staticValues_getElem?_iff, ← hparams] at hfirst
        obtain ⟨ds, hds, hlog⟩ := callAll_log driver (t.calls r) []
        refine Or.inr ⟨r, hgen, fun k v hmem => hfirst k v ?_⟩
        rw [Terminal.run_eq hgen, hlog, List.nil_append] at hmem
        exact Terminal.bind_mem_calls.mp (hds.subset hmem)

/-- The delete of the rows with `a = ?` and `b = 7`. -/
def removeMixed : Terminal :=
  .remove {
    tableName := "t"
    columns := ["a", "b"]
    where_ := some (.logic (.binary (.columnRef ⟨"t", "a"⟩) .eq (.paramPlaceholder 0)) .and
      (.binary (.columnRef ⟨"t", "b"⟩) .eq (.literal (.int64 7)))) }

/-- Not every terminal binds values to their own placeholders : `removeMixed` binds `7` to
the placeholder of `a`. -/
theorem not_forall_terminal_binds : ¬ ∀ (driver : Driver) (d : Dialect) (t : Terminal),
    (∀ call, t.generateCall = .ok call → ∀ n ∈ call.trees, ∀ m ∈ n.visited, m.NonemptyIn) →
      t.BindsOwnSlots driver d := by
  intro h
  obtain ⟨r, hgen, hparams, hslots⟩ : ∃ r, removeMixed.generated .sqlite = .ok r ∧
      r.params = [.int64 7] ∧ r.slots = [.dynamic 0, .static (.int64 7)] :=
    ⟨_, rfl, rfl, rfl⟩
  have hIn : ∀ call, removeMixed.generateCall = .ok call →
      ∀ n ∈ call.trees, ∀ m ∈ n.visited, m.NonemptyIn := by
    rintro call hcall
    injection hcall with hcall
    rw [← hcall]
    simp only [QueryBuilder.removeCall, GenerateCall.trees, Option.toList_some,
      List.forall_mem_singleton]
    simp [ExprNode.visited_eq, ExprNode.children, ExprNode.NonemptyIn]
  rcases h .accepting .sqlite removeMixed hIn with ⟨e, he, -⟩ | ⟨r', hr', hbind⟩
  · rw [Terminal.run_eq hgen, callAll_accepting] at he
    contradiction
  · rw [hgen] at hr'
    injection hr' with hr'
    have hslot := hbind 0 (.int64 7) (by
      rw [Terminal.run_eq hgen, callAll_accepting, List.nil_append]
      exact Terminal.bind_mem_calls.mpr (by rw [hparams]; rfl))
    rw [← hr', hslots] at hslot
    exact absurd hslot (by decide)

end CppLinq
