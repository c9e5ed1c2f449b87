import CppLinq.Substitution

/-!
# Prepared queries and commands

`PreparedQuery` and `PreparedCommand` (`core/prepared_query.h`) keep a statement and the
slots it was generated with, and bind one value to every slot at each execution. Both are
`Prepared` here : they differ in their name and in the call that executes.

An execution makes the calls that binding the parameters of the substituted query would
make, or throws before it executes (`prepared_execute_eq`). Nothing is kept from one
execution to the next.
-/

namespace CppLinq

/-- What a `QueryBuilder` prepares. -/
inductive Preparation
  | select
  | update (assignments : List AssignExpr)
  | remove

/-- The two kinds of prepared statements. -/
inductive PreparedKind
  | query | command
  deriving DecidableEq, Repr

/-- The word for it in the exceptions. -/
def PreparedKind.name : PreparedKind → String
  | .query => "PreparedQuery"
  | .command => "PreparedCommand"

/-- The call that executes. -/
def PreparedKind.executes : PreparedKind → DriverCall
  | .query => .executeQuery
  | .command => .executeNonQuery

/-- A prepared query or command. It has no statement once moved from. -/
structure Prepared where
  kind : PreparedKind
  stmt : Option Text
  slots : List ParameterSlot

/-- What a preparation makes. -/
def Preparation.kind : Preparation → PreparedKind
  | .select => .query
  | .update _ | .remove => .command

/-- The preparation with values in place of its placeholders. -/
def Preparation.substitute (args : List BoundValue) : Preparation → Preparation
  | .select => .select
  | .update assignments => .update (assignments.map (AssignExpr.substitute args))
  | .remove => .remove

/-- The statement to prepare. -/
def QueryBuilder.preparedCall (q : QueryBuilder) : Preparation → GenerateCall
  | .select => q.selectCall
  | .update assignments => q.updateCall assignments
  | .remove => q.removeCall

/-- `prepare`, `prepare_update` and `prepare_remove`. -/
def QueryBuilder.prepare (driver : Driver) (d : Dialect) (q : QueryBuilder)
    (prep : Preparation) : Session Prepared := do
  let r ← generate d (q.preparedCall prep)
  call driver (.prepare r.sql)
  return ⟨prep.kind, some r.sql, r.slots⟩

/-- The exception for a slot without argument. -/
def PreparedKind.missingArgument (kind : PreparedKind) : Exn :=
  .dbException (kind.name ++ ": missing argument for dynamic parameter slot")

/-- Bind the slots to the positions from `k` on. -/
def bindEach (driver : Driver) (kind : PreparedKind) (dynamicArgs : List BoundValue) :
    ℕ → List ParameterSlot → Session Unit
  | _, [] => return
  | k, .dynamic i :: slots =>
    match dynamicArgs[i]? with
    | some v => do
      call driver (.bind k v)
      bindEach driver kind dynamicArgs (k + 1) slots
    | none => throw kind.missingArgument
  | k, .static v :: slots => do
    call driver (.bind k v)
    bindEach driver kind dynamicArgs (k + 1) slots

namespace Prepared

variable {α : Type}

/-- `bind_and_execute` and `bind_slots`. -/
def bindSlots (driver : Driver) (toBoundValue : α → BoundValue) (p : Prepared)
    (args : List α) : Session Unit := do
  if p.stmt.isNone then
    throw (.dbException (p.kind.name ++ " statement is null or moved"))
  call driver .reset
  bindEach driver p.kind (args.map toBoundValue) 0 p.slots

/-- One execution. -/
def execute (driver : Driver) (toBoundValue : α → BoundValue) (p : Prepared)
    (args : List α) : Session Unit := do
  p.bindSlots driver toBoundValue args
  call driver p.kind.executes

/-- The calls after executions with each of the given arguments in turn, whether they
throw or not. -/
def executeEach (driver : Driver) (toBoundValue : α → BoundValue) (p : Prepared) :
    List (List α) → List DriverCall → List DriverCall
  | [], log => log
  | args :: argss, log =>
    executeEach driver toBoundValue p argss (p.execute driver toBoundValue args log).2

end Prepared

/-! ## Binding the slots -/

section Binding

variable {driver : Driver} {kind : PreparedKind} {vals : List BoundValue}

/-- The value of a slot at an execution, if it has one. -/
def ParameterSlot.valueAt (vals : List BoundValue) : ParameterSlot → Option BoundValue
  | .dynamic i => vals[i]?
  | .static v => some v

theorem value?_fill (s : ParameterSlot) : (s.fill vals).value? = s.valueAt vals := by
  cases s with
  | static v => rfl
  | dynamic i =>
    rw [ParameterSlot.fill, ParameterSlot.valueAt]
    cases vals[i]? <;> rfl

theorem bindEach_cons (k : ℕ) (s : ParameterSlot) (slots : List ParameterSlot) :
    bindEach driver kind vals k (s :: slots) = match s.valueAt vals with
      | some v => (do call driver (.bind k v); bindEach driver kind vals (k + 1) slots)
      | none => throw kind.missingArgument := by
  cases s <;> rfl

/-- With an argument for every slot, the values are those of the filled slots. -/
theorem bindEach_eq_callAll {slots : List ParameterSlot}
    (h : ∀ s ∈ slots, (s.valueAt vals).isSome) (k : ℕ) :
    bindEach driver kind vals k slots =
      callAll driver (bindCalls k (staticValues (slots.map (ParameterSlot.fill vals)))) := by
  induction slots generalizing k with
  | nil => rfl
  | cons s slots ih =>
    obtain ⟨v, hv⟩ := Option.isSome_iff_exists.mp (h s (by simp))
    have hstatic : staticValues ((s :: slots).map (ParameterSlot.fill vals)) =
        v :: staticValues (slots.map (ParameterSlot.fill vals)) := by
      rw [List.map_cons, staticValues, List.filterMap_cons_some (b := v)]
      · rfl
      · rw [value?_fill, hv]
    rw [bindEach_cons, hv, hstatic, ih fun t ht => h t (by simp [ht])]
    rfl

/-- Without an argument for some slot, binding stops with an exception. -/
theorem bindEach_eq_throw {slots : List ParameterSlot}
    (h : ∃ s ∈ slots, s.valueAt vals = none) (k : ℕ) :
    ∃ cs, (∀ c ∈ cs, ¬ c.Executes) ∧ bindEach driver kind vals k slots =
      (do callAll driver cs; throw kind.missingArgument) := by
  induction slots generalizing k with
  | nil => simp at h
  | cons s slots ih =>
    rw [bindEach_cons]
    cases hs : s.valueAt vals with
    | none => exact ⟨[], by simp, by simp [callAll]⟩
    | some v =>
      have hslots : ∃ s ∈ slots, s.valueAt vals = none := by
        obtain ⟨t, ht, hnone⟩ := h
        rcases List.mem_cons.mp ht with rfl | ht
        · rw [hs] at hnone
          contradiction
        · exact ⟨t, ht, hnone⟩
      obtain ⟨cs, hcs, heq⟩ := ih hslots (k + 1)
      refine ⟨.bind k v :: cs, ?_, ?_⟩
      · rintro c hc
        rcases List.mem_cons.mp hc with rfl | hc
        · exact id
        · exact hcs c hc
      · simp [heq, callAll]

end Binding

/-! ## Preparing and executing -/

section Execution

variable {α : Type} {driver : Driver} {d : Dialect}

theorem preparedCall_hasTrees (q : QueryBuilder) (prep : Preparation) :
    (q.preparedCall prep).HasTrees := by
  cases prep with
  | select => exact q.selectCall_hasTrees
  | _ => trivial

/-- The statement of the substituted query. -/
theorem generate_preparedCall_fills {q : QueryBuilder} {prep : Preparation} {r : GeneratedSql}
    (vals : List BoundValue) (h : generate d (q.preparedCall prep) = .ok r) :
    ∃ r', generate d ((q.substitute vals).preparedCall (prep.substitute vals)) = .ok r' ∧
      GeneratedSql.Fills vals r r' := by
  cases prep with
  | select =>
    have hselect : ∀ q : QueryBuilder, generate d (q.preparedCall .select) =
        generateCteSelect d q.ctes q.tableName q.columns q.where_ q.orderClauses q.limit
          q.offset q.isDistinct q.groupByClauses q.having := by
      intro q
      rw [QueryBuilder.preparedCall, QueryBuilder.selectCall]
      split
      · rename_i hctes
        rw [List.isEmpty_iff.mp hctes]
        rfl
      · rfl
    rw [hselect] at h
    obtain ⟨r', hr', hfills⟩ := generateCteSelect_fills vals h
    exact ⟨r', (hselect _).trans hr', hfills⟩
  | update assignments =>
    injection h with h
    rw [← h]
    exact ⟨_, rfl, Agree.fills ((agree_assignmentList assignments).bind fun _ =>
      (agree_visitOption q.where_).bind fun _ => agree_pure _)⟩
  | remove =>
    injection h with h
    rw [← h]
    exact ⟨_, rfl, Agree.fills ((agree_visitOption q.where_).bind fun _ => agree_pure _)⟩

/-- The placeholders of the trees a statement is generated from, as its dynamic slots. -/
theorem dynamic_mem_slots_iff {call : GenerateCall} {r : GeneratedSql} (hcall : call.HasTrees)
    (h : generate d call = .ok r) (i : ℕ) :
    .dynamic i ∈ r.slots ↔ ∃ n ∈ call.trees, .paramPlaceholder i ∈ n.visited := by
  have hslot : ∀ n : ExprNode, n.slot? = some (.dynamic i) ↔ n = .paramPlaceholder i := by
    intro n
    cases n <;> simp [ExprNode.slot?]
  rw [(generate_writtenFrom hcall h).slots_eq]
  simp [ExprNode.leaves, hslot]

theorem execute_eq (driver : Driver) (toBoundValue : α → BoundValue) {p : Prepared}
    (hp : p.stmt.isSome) (args : List α) :
    p.execute driver toBoundValue args = (do
      call driver .reset
      bindEach driver p.kind (args.map toBoundValue) 0 p.slots
      call driver p.kind.executes) := by
  have hnone : p.stmt.isNone = false := by
    rw [Option.isNone_eq_false_iff]
    exact hp
  simp [Prepared.execute, Prepared.bindSlots, hnone]

/-- What `prepare` returns. -/
theorem prepare_eq {q : QueryBuilder} {prep : Preparation} {p : Prepared} {log : List DriverCall}
    (h : (q.prepare driver d prep log).1 = .ok p) :
    ∃ r, generate d (q.preparedCall prep) = .ok r ∧ p = ⟨prep.kind, some r.sql, r.slots⟩ := by
  cases hr : generate d (q.preparedCall prep) with
  | error e =>
    rw [QueryBuilder.prepare, hr] at h
    contradiction
  | ok r =>
    have hrun : q.prepare driver d prep log =
        (do call driver (.prepare r.sql); return ⟨prep.kind, some r.sql, r.slots⟩ :
          Session Prepared) log := by
      rw [QueryBuilder.prepare, hr]
      rfl
    rw [hrun, Session.bind_eq, call_eq] at h
    refine ⟨r, rfl, ?_⟩
    cases hd : driver log (.prepare r.sql) with
    | some e =>
      rw [hd] at h
      contradiction
    | none =>
      rw [hd] at h
      injection h with h
      exact h.symm

/-- An execution of a prepared query makes the calls of the query with the arguments in
place of its placeholders : the statement is the one generated for that query, and its
parameters are bound in order. Where a placeholder of the statement has no argument, the
execution throws and executes nothing. Earlier executions play no part. -/
theorem prepared_execute_eq (toBoundValue : α → BoundValue) {q : QueryBuilder}
    {prep : Preparation} {p : Prepared} {log : List DriverCall}
    (h : (q.prepare driver d prep log).1 = .ok p)
    (earlier : List (List α)) (args : List α) :
    let now := p.executeEach driver toBoundValue earlier (q.prepare driver d prep log).2
    let vals := args.map toBoundValue
    ((∀ n ∈ (q.preparedCall prep).trees, ∀ i, .paramPlaceholder i ∈ n.visited →
        i < args.length) →
      ∃ r', generate d ((q.substitute vals).preparedCall (prep.substitute vals)) = .ok r' ∧
        p.stmt = some r'.sql ∧
        p.execute driver toBoundValue args now =
          callAll driver (.reset :: (bindCalls 0 r'.params ++ [p.kind.executes])) now) ∧
    ((∃ n ∈ (q.preparedCall prep).trees, ∃ i, .paramPlaceholder i ∈ n.visited ∧
        args.length ≤ i) →
      ∃ cs, (∀ c ∈ cs, ¬ c.Executes) ∧
        p.execute driver toBoundValue args now =
          (do callAll driver cs; throw p.kind.missingArgument : Session Unit) now) := by
  intro now vals
  obtain ⟨r, hr, rfl⟩ := prepare_eq h
  have htrees := preparedCall_hasTrees q prep
  have hdynamic := dynamic_mem_slots_iff htrees hr
  have hexecute := execute_eq driver toBoundValue (p := ⟨prep.kind, some r.sql, r.slots⟩) rfl args
  constructor
  · intro hargs
    obtain ⟨r', hr', hfills⟩ := generate_preparedCall_fills vals hr
    have hvalues : ∀ s ∈ r.slots, (s.valueAt vals).isSome := by
      rintro (i | v) hs
      · obtain ⟨n, hn, hi⟩ := (hdynamic i).mp hs
        simpa [ParameterSlot.valueAt, vals] using hargs n hn i hi
      · rfl
    have hparams : r'.params = staticValues (r.slots.map (ParameterSlot.fill vals)) := by
      rw [(generate_writtenFrom (preparedCall_hasTrees _ _) hr').params_eq, hfills.slots_eq]
    refine ⟨r', hr', by rw [hfills.sql_eq], ?_⟩
    rw [hexecute, bindEach_eq_callAll hvalues, ← hparams, callAll, callAll_append,
      callAll_singleton]
  · rintro ⟨n, hn, i, hi, hlen⟩
    have hmissing : ∃ s ∈ r.slots, s.valueAt vals = none :=
      ⟨.dynamic i, (hdynamic i).mpr ⟨n, hn, hi⟩, by simpa [ParameterSlot.valueAt, vals] using hlen⟩
    obtain ⟨cs, hcs, heq⟩ := bindEach_eq_throw hmissing 0
    refine ⟨.reset :: cs, ?_, ?_⟩
    · rintro c hc
      rcases List.mem_cons.mp hc with rfl | hc
      · exact id
      · exact hcs c hc
    · rw [hexecute, heq]
      simp [callAll]

/-- The delete of the rows with a given key. -/
def removeByKey : QueryBuilder where
  tableName := "t"
  columns := ["id"]
  where_ := some (.binary (.columnRef ⟨"t", "id"⟩) .eq (.paramPlaceholder 0))

/-- `removeByKey` executed with the key 7, after an execution without a key. -/
theorem prepared_execute_removeByKey :
    let p : Prepared := ⟨.command, some (generateDelete .sqlite "t" removeByKey.where_).sql,
      [.dynamic 0]⟩
    let now := p.executeEach .accepting id [[]]
      (removeByKey.prepare .accepting .sqlite .remove []).2
    ∃ r', generate .sqlite ((removeByKey.substitute [.int64 7]).preparedCall .remove) = .ok r' ∧
      p.stmt = some r'.sql ∧
      p.execute .accepting id [.int64 7] now =
        callAll .accepting (.reset :: (bindCalls 0 r'.params ++ [.executeNonQuery])) now := by
  have hprepare : (removeByKey.prepare .accepting .sqlite .remove []).1 = .ok ⟨.command,
    some (generateDelete .sqlite "t" removeByKey.where_).sql, [.dynamic 0]⟩ := rfl
  refine (prepared_execute_eq id hprepare [[]] [BoundValue.int64 7]).1 ?_
  simp only [QueryBuilder.preparedCall, QueryBuilder.removeCall, GenerateCall.trees, removeByKey,
    Option.toList_some, List.forall_mem_singleton]
  simp [ExprNode.visited_eq, ExprNode.children]

/-- The trees of a query and its assignments, whether its statement has them or not. -/
def QueryBuilder.stateTrees (q : QueryBuilder) (prep : Preparation) : List ExprNode :=
  q.ctes.flatMap CteClause.trees ++ q.where_.toList ++ q.groupByClauses ++ q.having.toList ++
    q.orderClauses.map Prod.fst ++
    match prep with
    | .update assignments => assignments.map AssignExpr.value
    | _ => []

/-- A placeholder without argument does not always make an execution throw : a delete has
no use for the ordering of its query. -/
theorem not_forall_missing_throws : ¬ ∀ (d : Dialect) (q : QueryBuilder) (prep : Preparation)
    (p : Prepared) (args : List BoundValue),
    (q.prepare .accepting d prep []).1 = .ok p →
    (∃ n ∈ q.stateTrees prep, ∃ i, .paramPlaceholder i ∈ n.visited ∧ args.length ≤ i) →
      ∃ e, (p.execute .accepting id args []).1 = .error e := by
  intro h
  obtain ⟨e, he⟩ := h .sqlite
    { tableName := "t", columns := [], orderClauses := [(.paramPlaceholder 0, .asc)] } .remove
    ⟨.command, some (generateDelete .sqlite "t" none).sql, []⟩ [] rfl
    ⟨.paramPlaceholder 0, by simp [QueryBuilder.stateTrees], 0, by
      rw [ExprNode.visited_eq]
      simp⟩
  rw [execute_eq .accepting id rfl] at he
  contradiction

end Execution

end CppLinq
