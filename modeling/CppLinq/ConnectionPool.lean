import CppLinq.Interleaving
import CppLinq.Values

/-!
# The connection pool

`ConnectionPoolState` and `PooledConnection` (`driver/connection_pool.h`). The members of a
pool change only under its mutex, so a method is the list of its critical sections : what
`acquire` does once it has the lock, what it does when it is woken, and, when a new
connection could not be opened, what it does under the lock taken again. `PoolStep`
interleaves the critical sections of any number of threads. A thread that waits may wake at
any time, as `std::condition_variable` allows, so notifications are left out.

A physical connection is the number of connections that were opened before it.
-/

namespace CppLinq

/-! ## Configuration -/

/-- `PoolConfig`. -/
structure PoolConfig where
  minConnections : UInt64 := 1
  maxConnections : UInt64 := 10
  /-- In milliseconds. -/
  acquireTimeout : ℤ := 5000
  asyncWorkerCount : UInt64 := 0
  asyncQueueCapacity : UInt64 := 64

/-- A configuration as the constructor of `ConnectionPoolState` leaves it. -/
structure NormalConfig extends PoolConfig where
  max_pos : 0 < maxConnections
  min_le_max : minConnections ≤ maxConnections

/-- The constructor of `ConnectionPoolState`. -/
def PoolConfig.normalized (config : PoolConfig) : NormalConfig :=
  let maxConnections := if config.maxConnections = 0 then 1 else config.maxConnections
  { minConnections :=
      if config.minConnections > maxConnections then maxConnections else config.minConnections
    maxConnections := maxConnections
    acquireTimeout := config.acquireTimeout
    asyncWorkerCount :=
      if config.asyncWorkerCount = 0 ∨ config.asyncWorkerCount > maxConnections then
        maxConnections
      else config.asyncWorkerCount
    asyncQueueCapacity :=
      if config.asyncQueueCapacity = 0 then 1 else config.asyncQueueCapacity
    max_pos := by
      by_cases h : config.maxConnections = 0
      · simp [maxConnections, h]
      · simpa [maxConnections, h] using UInt64.pos_iff_ne_zero.mpr h
    min_le_max := by
      split
      · exact UInt64.le_refl _
      · rename_i h
        exact UInt64.not_lt.mp h }

/-! ## The state of a pool -/

/-- The number of a connection, in the order of their creation. -/
abbrev ConnId := ℕ

/-- `ConnectionPoolState`, its threads apart. -/
structure ConnectionPoolState where
  config : NormalConfig
  idleConnections : List ConnId
  totalConnections : UInt64
  closed : Bool

/-- What a call that asks for a connection has decided when it lets go of the mutex. -/
inductive Decision
  /-- An exception, or `std::nullopt`. -/
  | refused (thrown : Option Exn)
  | pooled (c : ConnId)
  /-- It creates a connection. -/
  | creating
  deriving DecidableEq, Repr

/-- How a call answers where it does not get a connection : an exception, or `std::nullopt`. -/
structure Refusals where
  closed : Option Exn
  closedWhileWaiting : Option Exn
  timedOut : Option Exn
  failed : Option Exn

/-- The two methods that ask for a connection. -/
inductive Request
  | acquire
  | tryAcquire
  deriving DecidableEq, Repr

/-- The exceptions of `acquire` and of `try_acquire`. -/
def Request.refusals (config : PoolConfig) : Request → Refusals
  | .acquire =>
    { closed := some (.dbException "Cannot acquire connection: ConnectionPool is closed")
      closedWhileWaiting :=
        some (.dbException "Cannot acquire connection: ConnectionPool was closed while waiting")
      timedOut := some (.dbException
        ("Connection acquisition timed out after " ++ toString config.acquireTimeout ++ "ms"))
      failed := some (.dbException "Failed to acquire connection from pool") }
  | .tryAcquire => ⟨none, none, none, none⟩

/-- What a cancelled `acquire` throws. -/
def acquisitionCancelled : Exn :=
  .operationCancelled "Connection acquisition cancelled by stop token"

namespace ConnectionPoolState

/-- `size`. -/
def size (s : ConnectionPoolState) : UInt64 :=
  s.totalConnections

/-- `idle_count`. -/
def idleCount (s : ConnectionPoolState) : UInt64 :=
  .ofNat s.idleConnections.length

/-- `active_count`, which subtracts without a check. -/
def activeCount (s : ConnectionPoolState) : UInt64 :=
  s.totalConnections - s.idleCount

/-- `is_closed`. -/
def isClosed (s : ConnectionPoolState) : Bool :=
  s.closed

/-- The constructor, and `initialize` after it has created the connections `created`. -/
def initialized (config : NormalConfig) (created : List ConnId) : ConnectionPoolState :=
  created.foldl (fun s c => { s with
    idleConnections := s.idleConnections ++ [c], totalConnections := s.totalConnections + 1 })
    ⟨config, [], 0, false⟩

/-- The predicate of the wait. -/
def ready (s : ConnectionPoolState) (stopped : Bool) : Bool :=
  stopped || s.closed || !s.idleConnections.isEmpty ||
    decide (s.totalConnections < s.config.maxConnections)

/-- A call after its wait. -/
def afterWait (s : ConnectionPoolState) (r : Request) (stopped success : Bool) :
    ConnectionPoolState × Decision :=
  let refusals := r.refusals s.config.toPoolConfig
  if stopped then
    (s, .refused (some acquisitionCancelled))
  else if s.closed then
    (s, .refused refusals.closedWhileWaiting)
  else if !success then
    (s, .refused refusals.timedOut)
  else match s.idleConnections.getLast? with
    | some c => ({ s with idleConnections := s.idleConnections.dropLast }, .pooled c)
    | none =>
      if s.totalConnections < s.config.maxConnections then
        ({ s with totalConnections := s.totalConnections + 1 }, .creating)
      else (s, .refused refusals.failed)

/-- A call that holds the mutex and evaluates the predicate of its wait : what it decides,
unless it waits on. -/
def wait (s : ConnectionPoolState) (r : Request) (stopped timedOut : Bool) :
    Option (ConnectionPoolState × Decision) :=
  if s.ready stopped then some (s.afterWait r stopped true)
  else if timedOut then some (s.afterWait r stopped false)
  else none

/-- A call that has taken the mutex for the first time. -/
def enter (s : ConnectionPoolState) (r : Request) (stopped : Bool) :
    Option (ConnectionPoolState × Decision) :=
  if s.closed then some (s, .refused (r.refusals s.config.toPoolConfig).closed)
  else s.wait r stopped false

/-- The mutex taken again when a connection could not be created. -/
def creationFailed (s : ConnectionPoolState) : ConnectionPoolState :=
  { s with totalConnections := s.totalConnections - 1 }

/-- The critical section of `return_connection`, and whether the connection needs closing. -/
def returnConnection (s : ConnectionPoolState) (c : ConnId) (isOpen : Bool) :
    ConnectionPoolState × Bool :=
  if s.closed || !isOpen then
    ({ s with totalConnections := s.totalConnections - 1 }, isOpen)
  else ({ s with idleConnections := s.idleConnections ++ [c] }, false)

/-- The critical section of `close`, and the connections to close after it. -/
def close (s : ConnectionPoolState) : ConnectionPoolState × List ConnId :=
  if s.closed then (s, [])
  else
    ({ s with
        closed := true
        idleConnections := []
        totalConnections := s.totalConnections - .ofNat s.idleConnections.length },
      s.idleConnections)

end ConnectionPoolState

/-! ## Threads -/

/-- A physical connection, and whether the pool has called `close()` on it. -/
structure PhysicalConnection where
  isOpen : Bool
  closeCalled : Bool
  deriving DecidableEq, Repr

/-- A connection that `create_new_connection` returns. -/
def PhysicalConnection.opened : PhysicalConnection :=
  ⟨true, false⟩

/-- Where a thread is between two critical sections. -/
inductive PoolThread
  /-- Outside the pool. Its last call threw, or returned a `PooledConnection` or nothing. -/
  | outside (result : Except Exn (Option ℕ))
  /-- Before the mutex of a call that asks for a connection. -/
  | entering (r : Request) (token : Option ℕ)
  | waiting (r : Request) (token : Option ℕ)
  /-- In `create_new_connection`, without the mutex. -/
  | creating
  /-- Before the mutex is taken again. -/
  | createFailed (e : Exn)
  /-- In the loop of `close` over the connections that were idle. -/
  | closing (toClose : List ConnId)
  /-- In `return_connection`, after its critical section. -/
  | closingReturned (c : ConnId)

/-- The creations of a thread that are in progress. -/
def PoolThread.creations : PoolThread → ℕ
  | .creating | .createFailed _ => 1
  | _ => 0

/-- The connections that a thread has yet to close. -/
def PoolThread.toClose : PoolThread → List ConnId
  | .closing toClose => toClose
  | .closingReturned c => [c]
  | _ => []

/-- A pool with the threads that use it and the `PooledConnection` objects they hold. -/
structure PoolSystem where
  state : ConnectionPoolState
  connections : List PhysicalConnection
  /-- The connection of each `PooledConnection`, unless it was moved or released. -/
  leases : List (Option ConnId)
  /-- The connections that no longer belong to the pool, nor to a lease. -/
  letGo : List ConnId
  threads : List PoolThread
  /-- The stop tokens that were signalled. -/
  stopped : List ℕ

namespace PoolSystem

/-- The pool after the constructor and `initialize()` : the connections it begins with are
open. -/
def started (config : PoolConfig) : PoolSystem where
  state := .initialized config.normalized
    (List.range config.normalized.minConnections.toNat)
  connections := List.replicate config.normalized.minConnections.toNat .opened
  leases := []
  letGo := []
  threads := []
  stopped := []

/-- The connections of live leases. -/
def leased (s : PoolSystem) : List ConnId :=
  s.leases.flatMap Option.toList

/-- The creations in progress. -/
def creations (s : PoolSystem) : ℕ :=
  (s.threads.map PoolThread.creations).sum

/-- The connections that some call has yet to close. -/
def toClose (s : PoolSystem) : List ConnId :=
  s.threads.flatMap PoolThread.toClose

/-- The connection is open. -/
def isOpen (s : PoolSystem) (c : ConnId) : Bool :=
  s.connections[c]?.any PhysicalConnection.isOpen

/-- Whether the token of a call was signalled. -/
def stopRequested (s : PoolSystem) : Option ℕ → Bool
  | some k => k ∈ s.stopped
  | none => false

/-- A thread goes on to something else. -/
def setThread (s : PoolSystem) (i : ℕ) (p : PoolThread) : PoolSystem :=
  { s with threads := s.threads.set i p }

/-- A call returns a `PooledConnection`. -/
def lease (s : PoolSystem) (i : ℕ) (c : ConnId) : PoolSystem :=
  { s with
    leases := s.leases ++ [some c]
    threads := s.threads.set i (.outside (.ok (some s.leases.length))) }

/-- A call goes on as it has decided under the mutex. -/
def decide (s : PoolSystem) (i : ℕ) : ConnectionPoolState × Decision → PoolSystem
  | (state, .refused (some e)) => { s with state }.setThread i (.outside (.error e))
  | (state, .refused none) => { s with state }.setThread i (.outside (.ok none))
  | (state, .pooled c) => { s with state }.lease i c
  | (state, .creating) => { s with state }.setThread i .creating

/-- The first check of a call that asks for a connection. -/
def request (s : PoolSystem) (i : ℕ) (r : Request) (token : Option ℕ) : PoolSystem :=
  s.setThread i
    (if s.stopRequested token then .outside (.error acquisitionCancelled) else .entering r token)

/-- A call waits, or goes on. -/
def decideOrWait (s : PoolSystem) (i : ℕ) (r : Request) (token : Option ℕ) :
    Option (ConnectionPoolState × Decision) → PoolSystem
  | some d => s.decide i d
  | none => s.setThread i (.waiting r token)

/-- A thread enters `acquire` or `try_acquire`, and has the mutex. -/
def enter (s : PoolSystem) (i : ℕ) (r : Request) (token : Option ℕ) : PoolSystem :=
  s.decideOrWait i r token (s.state.enter r (s.stopRequested token))

/-- A thread has the mutex again after its wait. -/
def wake (s : PoolSystem) (i : ℕ) (r : Request) (token : Option ℕ) (timedOut : Bool) :
    PoolSystem :=
  s.decideOrWait i r token (s.state.wait r (s.stopRequested token) timedOut)

/-- `create_new_connection` returns. -/
def created (s : PoolSystem) (i : ℕ) : PoolSystem :=
  { s with connections := s.connections ++ [PhysicalConnection.opened] }.lease i
    s.connections.length

/-- A thread that could not create a connection, under the mutex again. -/
def creationFailed (s : PoolSystem) (i : ℕ) (e : Exn) : PoolSystem :=
  { s with state := s.state.creationFailed }.setThread i (.outside (.error e))

/-- `PooledConnection::release` of an object that has a connection, to the end of the
critical section. -/
def returnConnection (s : PoolSystem) (i : ℕ) (c : ConnId) : PoolSystem :=
  let (state, needClose) := s.state.returnConnection c (s.isOpen c)
  { s with
    state
    letGo := if s.state.closed || !s.isOpen c then s.letGo ++ [c] else s.letGo }.setThread i
    (if needClose then .closingReturned c else .outside (.ok none))

/-- `PooledConnection::release` of the object `k`. -/
def release (s : PoolSystem) (i k : ℕ) : PoolSystem :=
  match s.leases[k]?.join with
  | some c => { s with leases := s.leases.set k none }.returnConnection i c
  | none => s

/-- The move constructor : a new object takes the connection of the object `k`. -/
def moveConstruct (s : PoolSystem) (k : ℕ) : PoolSystem :=
  { s with leases := s.leases.set k none ++ [s.leases[k]?.join] }

/-- The move assignment from the object `k` to another one, that was released. -/
def moveInto (s : PoolSystem) (target k : ℕ) : PoolSystem :=
  { s with leases := (s.leases.set k none).set target s.leases[k]?.join }

/-- The move assignment. The object is its thread's own, so it is assigned before the
connection that it had is closed. -/
def moveAssign (s : PoolSystem) (i target k : ℕ) : PoolSystem :=
  if target = k then s else (s.release i target).moveInto target k

/-- `close`, to the end of its critical section. -/
def close (s : PoolSystem) (i : ℕ) : PoolSystem :=
  let (state, toClose) := s.state.close
  { s with state, letGo := s.letGo ++ toClose }.setThread i (.closing toClose)

/-- `close()` of a connection. One that throws may leave it open. -/
def closeConnection (s : PoolSystem) (c : ConnId) (throws : Bool) : PoolSystem :=
  { s with connections := s.connections.modify c fun p =>
      { p with isOpen := p.isOpen && throws, closeCalled := true } }

/-- One turn of the loop of `close`. -/
def closeNext (s : PoolSystem) (i : ℕ) (c : ConnId) (toClose : List ConnId) (throws : Bool) :
    PoolSystem :=
  (if s.isOpen c then s.closeConnection c throws else s).setThread i (.closing toClose)

/-- What happens to a connection outside the pool : it is lost, or its lease opens it. -/
def setOpen (s : PoolSystem) (c : ConnId) (isOpen : Bool) : PoolSystem :=
  { s with connections := s.connections.modify c fun p => { p with isOpen } }

end PoolSystem

/-- The steps of a pool, each with the thread that takes it, if it is one in the pool. -/
inductive PoolStep : PoolSystem → Option ℕ → PoolSystem → Prop
  | spawn (s : PoolSystem) :
    PoolStep s none { s with threads := s.threads ++ [.outside (.ok none)] }
  | requestStop (s : PoolSystem) (k : ℕ) : PoolStep s none { s with stopped := k :: s.stopped }
  | lose (s : PoolSystem) (c : ConnId) : PoolStep s none (s.setOpen c false)
  | reopen {s : PoolSystem} {c : ConnId} (h : c ∈ s.leased) : PoolStep s none (s.setOpen c true)
  | default (s : PoolSystem) : PoolStep s none { s with leases := s.leases ++ [none] }
  | request {s : PoolSystem} {i : ℕ} {result : Except Exn (Option ℕ)}
    (h : s.threads[i]? = some (.outside result)) (r : Request) (token : Option ℕ) :
    PoolStep s (some i) (s.request i r token)
  | enter {s : PoolSystem} {i : ℕ} {r : Request} {token : Option ℕ}
    (h : s.threads[i]? = some (.entering r token)) : PoolStep s (some i) (s.enter i r token)
  | wake {s : PoolSystem} {i : ℕ} {r : Request} {token : Option ℕ}
    (h : s.threads[i]? = some (.waiting r token)) (timedOut : Bool) :
    PoolStep s (some i) (s.wake i r token timedOut)
  | created {s : PoolSystem} {i : ℕ} (h : s.threads[i]? = some .creating) :
    PoolStep s (some i) (s.created i)
  | createFails {s : PoolSystem} {i : ℕ} (h : s.threads[i]? = some .creating) (e : Exn) :
    PoolStep s (some i) (s.setThread i (.createFailed e))
  | creationFailed {s : PoolSystem} {i : ℕ} {e : Exn}
    (h : s.threads[i]? = some (.createFailed e)) : PoolStep s (some i) (s.creationFailed i e)
  | release {s : PoolSystem} {i : ℕ} {result : Except Exn (Option ℕ)}
    (h : s.threads[i]? = some (.outside result)) (k : ℕ) : PoolStep s (some i) (s.release i k)
  | moveConstruct {s : PoolSystem} {i : ℕ} {result : Except Exn (Option ℕ)}
    (h : s.threads[i]? = some (.outside result)) (k : ℕ) :
    PoolStep s (some i) (s.moveConstruct k)
  | moveAssign {s : PoolSystem} {i : ℕ} {result : Except Exn (Option ℕ)}
    (h : s.threads[i]? = some (.outside result)) {target : ℕ} (ht : target < s.leases.length)
    (k : ℕ) : PoolStep s (some i) (s.moveAssign i target k)
  | close {s : PoolSystem} {i : ℕ} {result : Except Exn (Option ℕ)}
    (h : s.threads[i]? = some (.outside result)) : PoolStep s (some i) (s.close i)
  | closeNext {s : PoolSystem} {i : ℕ} {c : ConnId} {toClose : List ConnId}
    (h : s.threads[i]? = some (.closing (c :: toClose))) (throws : Bool) :
    PoolStep s (some i) (s.closeNext i c toClose throws)
  | closed {s : PoolSystem} {i : ℕ} (h : s.threads[i]? = some (.closing [])) :
    PoolStep s (some i) (s.setThread i (.outside (.ok none)))
  | closeReturned {s : PoolSystem} {i : ℕ} {c : ConnId}
    (h : s.threads[i]? = some (.closingReturned c)) (throws : Bool) :
    PoolStep s (some i) ((s.closeConnection c throws).setThread i (.outside (.ok none)))

end CppLinq
