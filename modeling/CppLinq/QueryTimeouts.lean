import Mathlib.Algebra.GroupWithZero.Nat
import CppLinq.PreparedQuery
import CppLinq.Terminals

/-!
# Query timeouts

`IConnection::stream` (`driver/connection.cpp`) and `stream_with_options`
(`core/prepared_query.h`) hand their options to the statement before it is executed. The native
drivers make of a query timeout a setting of the connection, in milliseconds computed in 32 bits,
and set it back nowhere. So the option of one query governs all later ones, and in SQLite, where a
query is executed as its rows are read, those that were opened before it and are read after it
(`optionsStay_iff`).
-/

namespace CppLinq

/-! ## The setting of a connection -/

/-- The drivers with a connection of their own. -/
inductive NativeDriver
  | sqlite
  | postgres
  | mysql
  deriving DecidableEq

/-- The longest timeout that can be set, in milliseconds : the parameter of
`sqlite3_busy_timeout` is an `int`, `statement_timeout` is an integer setting, and
`max_execution_time` an unsigned one. -/
def NativeDriver.maxTimeout : NativeDriver → ℕ
  | .sqlite | .postgres => 2 ^ 31 - 1
  | .mysql => 2 ^ 32 - 1

/-- The timeout in force on a connection, in milliseconds. -/
abbrev Timeout (d : NativeDriver) :=
  { ms : ℕ // ms ≤ d.maxTimeout }

/-- The milliseconds that `set_timeout` computes. -/
def timeoutMs (seconds : UInt32) : UInt32 :=
  seconds * 1000

/-- `sqlite3_busy_timeout`, for which an argument that is not positive is no timeout. -/
def busyTimeout (ms : UInt32) : Timeout .sqlite :=
  if h : ms.toNat < 2 ^ 31 then ⟨ms.toNat, Nat.le_sub_one_of_lt h⟩ else ⟨0, Nat.zero_le _⟩

/-- `SET statement_timeout`. The error for a value that is too large is not looked at. -/
def setStatementTimeout (ms : UInt32) (old : Timeout .postgres) : Timeout .postgres :=
  if h : ms.toNat < 2 ^ 31 then ⟨ms.toNat, Nat.le_sub_one_of_lt h⟩ else old

/-- `SET max_execution_time`. -/
def setMaxExecutionTime (ms : UInt32) : Timeout .mysql :=
  ⟨ms.toNat, Nat.le_sub_one_of_lt ms.toNat_lt⟩

/-- The `set_timeout` of the statements of a driver. -/
def setTimeout : (d : NativeDriver) → UInt32 → Timeout d → Timeout d
  | .sqlite, seconds, _ => busyTimeout (timeoutMs seconds)
  | .postgres, seconds, old => setStatementTimeout (timeoutMs seconds) old
  | .mysql, seconds, _ => setMaxExecutionTime (timeoutMs seconds)

theorem timeoutMs_of_le {seconds : UInt32} (h : seconds.toNat * 1000 ≤ 2 ^ 32 - 1) :
    (timeoutMs seconds).toNat = seconds.toNat * 1000 := by
  rw [timeoutMs, UInt32.toNat_mul]
  exact Nat.mod_eq_of_lt (Nat.lt_of_le_sub_one (by decide) h)

/-- A timeout is set to the seconds asked for just when they fit. -/
theorem setTimeout_eq_iff {d : NativeDriver} (seconds : UInt32) (old : Timeout d) :
    (setTimeout d seconds old).1 = seconds.toNat * 1000 ↔
      seconds.toNat * 1000 ≤ d.maxTimeout := by
  constructor
  · intro h
    exact h ▸ (setTimeout d seconds old).2
  · intro h
    have hms : (timeoutMs seconds).toNat = seconds.toNat * 1000 := by
      refine timeoutMs_of_le (h.trans ?_)
      cases d <;> decide
    cases d with
    | sqlite =>
      have hlt : (timeoutMs seconds).toNat < 2 ^ 31 := hms ▸ Nat.lt_of_le_sub_one (by decide) h
      rw [setTimeout, busyTimeout, dif_pos hlt]
      exact hms
    | postgres =>
      have hlt : (timeoutMs seconds).toNat < 2 ^ 31 := hms ▸ Nat.lt_of_le_sub_one (by decide) h
      rw [setTimeout, setStatementTimeout, dif_pos hlt]
      exact hms
    | mysql => exact hms

/-! ## The uses of a connection -/

/-- `IConnection::stream`. -/
def streamQuery (driver : Driver) (sql : Text) (params : List BoundValue)
    (options : ExecutionOptions) : Session Unit := do
  call driver (.prepare sql)
  callAll driver (Terminal.optionCalls options)
  callAll driver (bindCalls 0 params)
  call driver .executeQuery

/-- `stream_with_options`. -/
def Prepared.streamWithOptions (driver : Driver) (p : Prepared) (args : List BoundValue)
    (options : ExecutionOptions) : Session Unit := do
  callAll driver (Terminal.optionCalls options)
  p.bindSlots driver id args
  call driver .executeQuery

/-- The calls that set a timeout. -/
def DriverCall.SetsTimeout : DriverCall → Prop
  | .setTimeout _ => True
  | _ => False

/-- The calls that make a reader. -/
def DriverCall.Reads : DriverCall → Prop
  | .executeQuery | .executeQueryDirect _ => True
  | _ => False

/-- A use of a connection. -/
inductive ConnectionUse
  /-- A query, with the timeout among its options, if any. -/
  | stream (sql : Text) (params : List BoundValue) (timeout : Option UInt32) (stopToken : Bool)
  /-- A prepared query, with arguments and options. It has not been moved from. -/
  | streamWithOptions (p : Prepared) (h : p.stmt.isSome) (args : List BoundValue)
    (timeout : Option UInt32) (stopToken : Bool)
  /-- `execute_query_direct`, which has no options. -/
  | direct (sql : Text)
  /-- `next` of the reader of a query, by its place among the queries that have been opened. -/
  | fetch (query : ℕ)
  /-- Other statements, which have no options and are no queries. -/
  | statements (calls : List DriverCall) (h : ∀ c ∈ calls, ¬ c.SetsTimeout ∧ ¬ c.Reads)
  /-- The connection goes back to its pool, and is leased again. No call is made to it. -/
  | returned

namespace ConnectionUse

/-- The timeout that a use was given. -/
def timeout : ConnectionUse → Option UInt32
  | .stream _ _ timeout _ => timeout
  | .streamWithOptions _ _ _ timeout _ => timeout
  | _ => none

/-- The calls of a use. -/
def run (driver : Driver) : ConnectionUse → Session Unit
  | .stream sql params timeout stopToken =>
    streamQuery driver sql params ⟨timeout.map UInt32.toNat, stopToken⟩
  | .streamWithOptions p _ args timeout stopToken =>
    p.streamWithOptions driver args ⟨timeout.map UInt32.toNat, stopToken⟩
  | .direct sql => call driver (.executeQueryDirect sql)
  | .statements calls _ => callAll driver calls
  | .fetch _ | .returned => return

/-- The timeout of the query that a use opens, if it opens one. -/
def opens : ConnectionUse → List (Option UInt32)
  | .stream _ _ timeout _ => [timeout]
  | .streamWithOptions _ _ _ timeout _ => [timeout]
  | .direct _ => [none]
  | .fetch _ | .statements _ _ | .returned => []

end ConnectionUse

/-- The calls that a connection has had, and the timeouts of the queries that it has opened. -/
structure ConnectionRun where
  log : List DriverCall := []
  readers : List (Option UInt32) := []

/-- What matters for the timeouts of a connection. -/
inductive TimeoutEvent
  /-- `set_timeout`. -/
  | set (seconds : UInt32)
  /-- The database executes a statement that was given a timeout, or none. -/
  | exec (own : Option UInt32)
  deriving DecidableEq

/-- What a call of a use does. `SqlitePreparedStatement::execute_query` resets the statement and
executes nothing. -/
def callEvents (d : NativeDriver) (own : Option UInt32) : DriverCall → List TimeoutEvent
  | .setTimeout seconds => [.set (UInt32.ofNat seconds)]
  | .executeQuery | .executeQueryDirect _ => if d = .sqlite then [] else [.exec own]
  | .executeNonQuery | .executeNonQueryDirect _ | .insertManyBatch _ _ _ _ => [.exec own]
  | .beginTransaction | .commit | .rollback => [.exec own]
  | .prepare _ | .setStopToken | .reset | .bind _ _ => []

namespace ConnectionRun

variable (d : NativeDriver) (driver : Driver) (r : ConnectionRun)

/-- The run after a use. A query is opened if no call threw. -/
def next (u : ConnectionUse) : ConnectionRun :=
  let (result, log) := u.run driver r.log
  ⟨log, if result.isOk then r.readers ++ u.opens else r.readers⟩

/-- What a use does : reading a row is `sqlite3_step` in SQLite, and the rows are there already
with the other drivers. -/
def events : ConnectionUse → List TimeoutEvent
  | .fetch query => if d = .sqlite then r.readers[query]?.toList.map .exec else []
  | u => ((u.run driver r.log).2.drop r.log.length).flatMap (callEvents d u.timeout)

/-- What uses do, one after another. -/
def trace (r : ConnectionRun) : List ConnectionUse → List TimeoutEvent
  | [] => []
  | u :: us => r.events d driver u ++ trace (r.next driver u) us

end ConnectionRun

/-! ## The timeouts of a run -/

section

variable {d : NativeDriver}

/-- Every statement without a timeout of its own is executed under the given one, where `t` is in
force at first. -/
def PlainUnder (ms : ℕ) : Timeout d → List TimeoutEvent → Prop
  | _, [] => True
  | t, .set seconds :: es => PlainUnder ms (setTimeout d seconds t) es
  | t, .exec none :: es => t.1 = ms ∧ PlainUnder ms t es
  | t, .exec (some _) :: es => PlainUnder ms t es

/-- The timeout of a query is that of its execution alone : it has the length that was asked for,
the query is executed under it, and later statements without one of their own run under the
timeout that was in force before. -/
def OptionsStay : Timeout d → List TimeoutEvent → Prop
  | _, [] => True
  | t, .set seconds :: es =>
    (setTimeout d seconds t).1 = seconds.toNat * 1000 ∧
      PlainUnder t.1 (setTimeout d seconds t) es ∧ OptionsStay (setTimeout d seconds t) es
  | t, .exec none :: es => OptionsStay t es
  | t, .exec (some seconds) :: es => t.1 = seconds.toNat * 1000 ∧ OptionsStay t es

/-- Each timeout fits the setting, and is in force already or comes after the last statement
without one of its own. A query is executed while the timeout set last is its own. -/
def TimeoutsAgree (last : Option UInt32) : Timeout d → List TimeoutEvent → Prop
  | _, [] => True
  | t, .set seconds :: es =>
    seconds.toNat * 1000 ≤ d.maxTimeout ∧
      (t.1 = seconds.toNat * 1000 ∨ .exec none ∉ es) ∧
        TimeoutsAgree (some seconds) (setTimeout d seconds t) es
  | t, .exec none :: es => TimeoutsAgree last t es
  | t, .exec (some seconds) :: es => last = some seconds ∧ TimeoutsAgree last t es

/-- No query with a timeout is executed before any timeout is set. -/
def SetFirst : Bool → List TimeoutEvent → Prop
  | _, [] => True
  | _, .set _ :: es => SetFirst true es
  | b, .exec none :: es => SetFirst b es
  | b, .exec (some _) :: es => b = true ∧ SetFirst b es

/-- Where each timeout is set back, the one in force governs all statements without one. -/
theorem plainUnder_iff {ms : ℕ} {t : Timeout d} {es : List TimeoutEvent} (h : OptionsStay t es) :
    PlainUnder ms t es ↔ t.1 = ms ∨ .exec none ∉ es := by
  induction es generalizing ms t with
  | nil => exact iff_of_true trivial (Or.inr List.not_mem_nil)
  | cons e es ih =>
    match e with
    | .exec none =>
      have hes : OptionsStay t es := h
      have hmem : ¬ (TimeoutEvent.exec none ∉ .exec none :: es) := not_not.mpr List.mem_cons_self
      rw [PlainUnder, ih hes, or_iff_left hmem]
      exact ⟨And.left, fun hms => ⟨hms, Or.inl hms⟩⟩
    | .exec (some seconds) =>
      have hmem : .exec none ∉ .exec (some seconds) :: es ↔ .exec none ∉ es := by simp
      rw [PlainUnder, ih h.2, hmem]
    | .set seconds =>
      obtain ⟨-, hback, hes⟩ := h
      have hmem : .exec none ∉ .set seconds :: es ↔ .exec none ∉ es := by simp
      rw [PlainUnder, ih hes, hmem]
      -- the setting is the same as before, or no statement is left to see it
      rcases (ih hes).mp hback with hsame | hnone
      · rw [hsame]
      · exact iff_of_true (Or.inr hnone) (Or.inr hnone)

/-- Options stay exactly if the timeout in force is theirs at every step. -/
theorem optionsStay_iff_agree {last : Option UInt32} {t : Timeout d} {es : List TimeoutEvent}
    (hlast : ∀ seconds, last = some seconds → t.1 = seconds.toNat * 1000)
    (hset : SetFirst last.isSome es) : OptionsStay t es ↔ TimeoutsAgree last t es := by
  induction es generalizing last t with
  | nil => exact Iff.rfl
  | cons e es ih =>
    match e with
    | .exec none => exact ih hlast hset
    | .exec (some seconds) =>
      obtain ⟨hsome, hset⟩ := hset
      obtain ⟨seconds', rfl⟩ := Option.isSome_iff_exists.mp hsome
      have hown : t.1 = seconds.toNat * 1000 ↔ some seconds' = some seconds := by
        rw [hlast seconds' rfl, Option.some.injEq, ← UInt32.toNat_inj]
        omega
      exact and_congr hown (ih hlast hset)
    | .set seconds =>
      rw [OptionsStay, TimeoutsAgree, setTimeout_eq_iff]
      refine and_congr_right fun hfits => ?_
      have hms := (setTimeout_eq_iff seconds t).mpr hfits
      have hes : OptionsStay (setTimeout d seconds t) es ↔
          TimeoutsAgree (some seconds) (setTimeout d seconds t) es := by
        refine ih ?_ hset
        rintro _ ⟨⟩
        exact hms
      rw [← hes]
      refine and_congr_left fun hstay => ?_
      rw [plainUnder_iff hstay, hms, eq_comm]

end

/-! ## Timeouts are set before their queries -/

section

variable {d : NativeDriver} {driver : Driver}

theorem setFirst_true (es : List TimeoutEvent) : SetFirst true es := by
  induction es with
  | nil => trivial
  | cons e es ih =>
    match e with
    | .set _ | .exec none => exact ih
    | .exec (some _) => exact ⟨rfl, ih⟩

theorem SetFirst.append {b b' : Bool} {es es' : List TimeoutEvent} (h : SetFirst b es)
    (h' : SetFirst b' es') (hb : b' = true → b = true ∨ ∃ seconds, .set seconds ∈ es) :
    SetFirst b (es ++ es') := by
  induction es generalizing b with
  | nil =>
    cases b with
    | true => exact setFirst_true es'
    | false =>
      have hfalse : b' = false := by
        rw [← Bool.not_eq_true]
        intro htrue
        rcases hb htrue with hb | ⟨_, hmem⟩
        · contradiction
        · contradiction
      rwa [hfalse] at h'
  | cons e es ih =>
    match e with
    | .set _ => exact setFirst_true (es ++ es')
    | .exec none => exact ih h (by simpa using hb)
    | .exec (some _) =>
      obtain ⟨rfl, -⟩ := h
      exact setFirst_true _

/-- Calls of a use without a timeout execute no query that has one. -/
theorem setFirst_callEvents (b : Bool) (cs : List DriverCall) :
    SetFirst b (cs.flatMap (callEvents d none)) := by
  induction cs generalizing b with
  | nil => trivial
  | cons c cs ih =>
    rw [List.flatMap_cons]
    have hone : SetFirst b (callEvents d none c) := by
      cases c with
      | executeQuery | executeQueryDirect =>
        rw [callEvents]
        split <;> trivial
      | _ => trivial
    exact hone.append (ih b) Or.inl

/-- A computation that only adds calls. -/
def Session.Extends {α : Type} (g : Session α) : Prop :=
  ∀ log, log <+: (g log).2

theorem extends_call (c : DriverCall) : (call driver c).Extends := by
  intro log
  rw [call_eq]
  exact List.prefix_append log [c]

/-- Sessions that only add to the log may follow each other. -/
theorem Session.Extends.bind {α β : Type} {g : Session α} {k : α → Session β} (hg : g.Extends)
    (hk : ∀ a, (k a).Extends) : (g >>= k).Extends := by
  intro log
  rw [Session.bind_eq]
  have hlog := hg log
  rcases hrun : g log with ⟨e | a, log'⟩
  · rw [hrun] at hlog
    exact hlog
  · rw [hrun] at hlog
    exact hlog.trans (hk a log')

theorem extends_return {α : Type} (a : α) : (return a : Session α).Extends :=
  fun log => List.prefix_refl log

theorem extends_throw {α : Type} (e : Exn) : (throw e : Session α).Extends :=
  fun log => List.prefix_refl log

theorem extends_callAll (cs : List DriverCall) : (callAll driver cs).Extends := by
  intro log
  obtain ⟨ds, -, hlog⟩ := callAll_log driver cs log
  rw [hlog]
  exact List.prefix_append log ds

theorem extends_bindEach (kind : PreparedKind) (vals : List BoundValue) (k : ℕ)
    (slots : List ParameterSlot) : (bindEach driver kind vals k slots).Extends := by
  induction slots generalizing k with
  | nil => exact extends_return ()
  | cons s slots ih =>
    rw [bindEach_cons]
    cases s.valueAt vals with
    | none => exact extends_throw _
    | some v => exact (extends_call _).bind fun _ => ih (k + 1)

theorem extends_bindSlots (p : Prepared) (args : List BoundValue) :
    (p.bindSlots driver id args).Extends := by
  have hbind : (do
      call driver .reset
      bindEach driver p.kind (args.map id) 0 p.slots : Session Unit).Extends :=
    (extends_call _).bind fun _ => extends_bindEach _ _ _ _
  unfold Prepared.bindSlots
  split
  · rw [Session.throw_bind]
    exact extends_throw _
  · exact (extends_return ()).bind fun _ => hbind

/-- The calls that a computation adds. -/
def Session.made {α : Type} (g : Session α) (log : List DriverCall) : List DriverCall :=
  (g log).2.drop log.length

/-- A call is made, and the others if it does not throw. -/
theorem made_call_bind {c : DriverCall} {k : Session Unit} (hk : k.Extends)
    (log : List DriverCall) :
    (do call driver c; k : Session Unit).made log =
      c :: if (driver log c).isSome then [] else k.made (log ++ [c]) := by
  unfold Session.made
  rw [Session.bind_eq, call_eq]
  cases driver log c with
  | some e => exact List.drop_left
  | none =>
    obtain ⟨ds, hds⟩ := hk (log ++ [c])
    change (k (log ++ [c])).2.drop log.length = c :: (k (log ++ [c])).2.drop (log ++ [c]).length
    rw [← hds, List.drop_left, List.append_assoc]
    exact List.drop_left

/-- A use with a timeout sets it first of all, or behind the preparation of its statement. -/
theorem ConnectionUse.run_of_timeout (driver : Driver) {u : ConnectionUse} {seconds : UInt32}
    (h : u.timeout = some seconds) :
    ∃ rest : Session Unit, rest.Extends ∧
      (u.run driver = (do call driver (.setTimeout seconds.toNat); rest) ∨
        ∃ sql, u.run driver = (do
          call driver (.prepare sql)
          call driver (.setTimeout seconds.toNat)
          rest)) := by
  cases u with
  | direct sql | fetch query | statements calls hcalls | returned => cases h
  | stream sql params timeout stopToken =>
    obtain rfl : timeout = some seconds := h
    refine ⟨do
      callAll driver (if stopToken then [.setStopToken] else [])
      callAll driver (bindCalls 0 params)
      call driver .executeQuery, (extends_callAll _).bind fun _ =>
        (extends_callAll _).bind fun _ => extends_call _, Or.inr ⟨sql, ?_⟩⟩
    change streamQuery driver sql params ⟨some seconds.toNat, stopToken⟩ = _
    simp only [streamQuery, Terminal.optionCalls, Option.toList_some, List.map_cons,
      List.map_nil, List.singleton_append, callAll, bind_assoc]
  | streamWithOptions p hp args timeout stopToken =>
    obtain rfl : timeout = some seconds := h
    refine ⟨do
      callAll driver (if stopToken then [.setStopToken] else [])
      p.bindSlots driver id args
      call driver .executeQuery, (extends_callAll _).bind fun _ =>
        (extends_bindSlots p args).bind fun _ => extends_call _, Or.inl ?_⟩
    change p.streamWithOptions driver args ⟨some seconds.toNat, stopToken⟩ = _
    simp only [Prepared.streamWithOptions, Terminal.optionCalls, Option.toList_some,
      List.map_cons, List.map_nil, List.singleton_append, callAll, bind_assoc]

/-- What a use with a timeout does is what its calls do. -/
theorem ConnectionRun.events_eq_of_timeout (d : NativeDriver) (driver : Driver)
    {u : ConnectionUse} {seconds : UInt32} (h : u.timeout = some seconds) (r : ConnectionRun) :
    r.events d driver u =
      ((u.run driver).made r.log).flatMap (callEvents d (some seconds)) := by
  rw [← h]
  cases u with
  | fetch query => cases h
  | _ => rfl

/-- A use with a timeout sets it before anything else of its own, unless its statement cannot be
prepared. -/
theorem events_of_timeout (d : NativeDriver) (driver : Driver) {u : ConnectionUse}
    {seconds : UInt32} (h : u.timeout = some seconds) (r : ConnectionRun) :
    (r.events d driver u = [] ∧ (u.run driver r.log).1.isOk = false) ∨
      ∃ es, r.events d driver u = .set seconds :: es := by
  have hset : ∀ cs, (DriverCall.setTimeout seconds.toNat :: cs).flatMap
      (callEvents d (some seconds)) = .set seconds :: cs.flatMap (callEvents d (some seconds)) := by
    intro cs
    rw [List.flatMap_cons, callEvents, UInt32.ofNat_toNat]
    rfl
  rw [r.events_eq_of_timeout d driver h]
  obtain ⟨rest, hrest, hrun | ⟨sql, hrun⟩⟩ := u.run_of_timeout driver h
  · rw [hrun, made_call_bind hrest, hset]
    exact Or.inr ⟨_, rfl⟩
  · rw [hrun, made_call_bind ((extends_call _).bind fun _ => hrest)]
    cases hprepare : driver r.log (.prepare sql) with
    | some e =>
      refine Or.inl ⟨rfl, ?_⟩
      rw [Session.bind_eq, call_eq, hprepare]
      rfl
    | none =>
      rw [if_neg (by simp), List.flatMap_cons, made_call_bind hrest, hset]
      exact Or.inr ⟨_, rfl⟩

/-- A use that has no timeout, or reads a row. -/
theorem setFirst_events {b : Bool} {r : ConnectionRun}
    (hb : ∀ seconds, some seconds ∈ r.readers → b = true) (u : ConnectionUse) :
    SetFirst b (r.events d driver u) := by
  cases htimeout : u.timeout with
  | some seconds =>
    rcases events_of_timeout d driver htimeout r with ⟨hnil, -⟩ | ⟨es, hes⟩
    · rw [hnil]
      trivial
    · rw [hes]
      exact setFirst_true es
  | none =>
    cases u with
    | fetch query =>
      rw [ConnectionRun.events]
      split
      · cases hreader : r.readers[query]? with
        | none => trivial
        | some own =>
          cases own with
          | none => trivial
          | some seconds => exact ⟨hb seconds (List.mem_of_getElem? hreader), trivial⟩
      · trivial
    | stream sql params timeout stopToken =>
      obtain rfl : timeout = none := htimeout
      exact setFirst_callEvents b _
    | streamWithOptions p hp args timeout stopToken =>
      obtain rfl : timeout = none := htimeout
      exact setFirst_callEvents b _
    | direct sql | statements calls hcalls | returned => exact setFirst_callEvents b _

/-- A query that is opened with a timeout has set it. -/
theorem readers_next (d : NativeDriver) {r : ConnectionRun} {u : ConnectionUse} {seconds : UInt32}
    (h : some seconds ∈ (r.next driver u).readers) :
    some seconds ∈ r.readers ∨ ∃ seconds', .set seconds' ∈ r.events d driver u := by
  have hreaders : (r.next driver u).readers =
      if (u.run driver r.log).1.isOk then r.readers ++ u.opens else r.readers := rfl
  rw [hreaders] at h
  split at h
  · rename_i hok
    refine (List.mem_append.mp h).imp_right fun hopens => ?_
    have htimeout : u.timeout = some seconds := by
      cases u with
      | stream sql params timeout stopToken => exact (List.mem_singleton.mp hopens).symm
      | streamWithOptions p hp args timeout stopToken => exact (List.mem_singleton.mp hopens).symm
      | direct sql => exact absurd (List.mem_singleton.mp hopens) (by simp)
      | fetch query | statements calls hcalls | returned => contradiction
    rcases events_of_timeout d driver htimeout r with ⟨-, hfailed⟩ | ⟨es, hes⟩
    · rw [hok] at hfailed
      contradiction
    · exact ⟨seconds, hes ▸ List.mem_cons_self⟩
  · exact Or.inl h

theorem setFirst_trace (us : List ConnectionUse) : ∀ {b : Bool} {r : ConnectionRun},
    (∀ seconds, some seconds ∈ r.readers → b = true) → SetFirst b (r.trace d driver us) := by
  induction us with
  | nil => intro _ _ _; trivial
  | cons u us ih =>
    intro b r hb
    let b' := b || (r.events d driver u).any fun e => e matches .set _
    have hnext : ∀ seconds, some seconds ∈ (r.next driver u).readers → b' = true := by
      intro seconds hmem
      rcases readers_next d hmem with hmem | ⟨seconds', hset⟩
      · simp only [b', hb seconds hmem, Bool.true_or]
      · refine (Bool.or_eq_true _ _).mpr (Or.inr (List.any_eq_true.mpr ⟨_, hset, rfl⟩))
    refine (setFirst_events hb u).append (ih hnext) fun hb' => ?_
    refine ((Bool.or_eq_true _ _).mp hb').imp_right fun hany => ?_
    obtain ⟨e, he, hmatch⟩ := List.any_eq_true.mp hany
    match e with
    | .set seconds => exact ⟨seconds, he⟩
    | .exec own => contradiction

end

/-- The timeouts of the queries of a connection stay with them just when each fits the setting, is
the timeout that is in force anyway or comes after the last statement without a timeout of its own,
and no query is executed after another timeout has been set. -/
theorem optionsStay_iff (d : NativeDriver) (start : Timeout d) (driver : Driver)
    (us : List ConnectionUse) :
    OptionsStay start (ConnectionRun.trace d driver {} us) ↔
      TimeoutsAgree none start (ConnectionRun.trace d driver {} us) :=
  optionsStay_iff_agree (fun _ h => nomatch h) (setFirst_trace us fun _ h => nomatch h)

/-- A query with a timeout of one second, and one without. -/
def timedThenPlain : List ConnectionUse :=
  [.stream (lit "SELECT 1") [] (some 1) false, .stream (lit "SELECT 2") [] none false]

/-- The second query runs under the timeout of the first. -/
theorem timedThenPlain_leaks :
    ¬ OptionsStay (⟨0, Nat.zero_le _⟩ : Timeout .postgres)
      (ConnectionRun.trace .postgres Driver.accepting {} timedThenPlain) := by
  rintro ⟨-, ⟨hplain, -⟩, -⟩
  exact absurd hplain (by decide)

/-- In SQLite the first of two queries that are opened one after the other is read under the
timeout of the second. -/
example : ConnectionRun.trace .sqlite Driver.accepting {}
    [.stream (lit "SELECT 1") [] (some 1) false, .stream (lit "SELECT 2") [] (some 2) false,
      .fetch 0] = [.set 1, .set 2, .exec (some 1)] :=
  rfl

end CppLinq
