import CppLinq.Values
import Mathlib.Data.List.Basic
import Mathlib.Order.Nat

/-!
# Streams of rows

The iterators of `core/streaming.h`, which map the rows of a reader one by one and look at a stop
token before each, and the list that `to_list` makes of the same rows.
-/

namespace CppLinq

/-! ## Readers -/

section

variable {Row Item : Type}

/-- A reader, by what it has for the calls of `next` : a row or an exception at each, and no row
after these. Its calls are counted. -/
structure DataReader (Row : Type) where
  script : List (Except Exn Row)
  calls : ℕ := 0

/-- `next` of a reader, which may throw. -/
def DataReader.next : DataReader Row → Except Exn (Option Row) × DataReader Row
  | ⟨[], calls⟩ => (.ok none, ⟨[], calls + 1⟩)
  | ⟨.ok row :: rest, calls⟩ => (.ok (some row), ⟨rest, calls + 1⟩)
  | ⟨.error e :: rest, calls⟩ => (.error e, ⟨rest, calls + 1⟩)

/-- The loop of `to_list` over the rows of a reader. -/
def listRows (mapRow : Row → Except Exn Item) : List (Except Exn Row) → Except Exn (List Item)
  | [] => .ok []
  | next :: rest => do
    let row ← next
    let item ← mapRow row
    return item :: (← listRows mapRow rest)

/-- The advance from which a stop token is requested, if it ever is. -/
structure StopToken where
  requestedAt : Option ℕ

/-- `stop_token.has_value() && stop_token->stop_requested()`, at an advance. -/
def stopRequested (token : Option StopToken) (k : ℕ) : Bool :=
  token.any fun t => t.requestedAt.any (· ≤ k)

/-! ## Iterators -/

/-- What sets the iterators of a stream apart : what they hold, and how a row is put there. An
exception may leave a part of a row. -/
structure StreamKind (Row Item : Type) where
  Current : Type
  start : Current
  reset : Current → Current
  load : Row → Current → Option Exn × Current
  /-- `operator*`, if there is something. -/
  deref : Current → Option Item

/-- An iterator of a stream, with the reader of the stream. -/
structure StreamIterator (kind : StreamKind Row Item) where
  reader : Option (DataReader Row)
  isEnd : Bool
  current : kind.Current

/-- What a stream throws when its token is signalled. -/
def cancelledByStopToken : Exn :=
  .operationCancelled "Streaming cancelled by stop_token"

namespace StreamIterator

variable {kind : StreamKind Row Item}

/-- `advance`, and the exception that it throws. -/
def advance (stop : Bool) (it : StreamIterator kind) : Option Exn × StreamIterator kind :=
  match it.isEnd, it.reader with
  | false, some reader =>
    if stop then
      (some cancelledByStopToken, { it with isEnd := true, current := kind.reset it.current })
    else
      match reader.next with
      | (.error e, reader) => (some e, { it with reader := some reader })
      | (.ok none, reader) =>
        (none, { reader := some reader, isEnd := true, current := kind.reset it.current })
      | (.ok (some row), reader) =>
        let (thrown, current) := kind.load row it.current
        (thrown, { it with reader := some reader, current })
  | _, _ => (none, { it with isEnd := true, current := kind.reset it.current })

end StreamIterator

/-- What a consumer sees of an advance. -/
inductive Outcome (Item : Type)
  | yields (item : Option Item)
  | throws (e : Exn)
  | ended

/-- After an advance : an exception, the end or an item. -/
def StreamIterator.outcome {kind : StreamKind Row Item} :
    Option Exn × StreamIterator kind → Outcome Item
  | (some e, _) => .throws e
  | (none, it) => if it.isEnd then .ended else .yields (kind.deref it.current)

/-- The outcomes of the first advances of an iterator, of which the first is the one of `begin`,
and the iterator after these. -/
def StreamKind.advances (kind : StreamKind Row Item) (reader : Option (DataReader Row))
    (token : Option StopToken) : ℕ → List (Outcome Item) × StreamIterator kind
  | 0 => ([], ⟨reader, false, kind.start⟩)
  | n + 1 =>
    let (outcomes, it) := kind.advances reader token n
    let result := it.advance (stopRequested token n)
    (outcomes ++ [StreamIterator.outcome result], result.2)

/-- What a loop over a stream yields, and the exception that ends it. -/
def forLoop : List (Outcome Item) → List (Option Item) × Option Exn
  | [] => ([], none)
  | .yields item :: rest => (item :: (forLoop rest).1, (forLoop rest).2)
  | .throws e :: _ => ([], some e)
  | .ended :: _ => ([], none)

/-! ## The two streams -/

/-- An `EntityStream`. -/
def entityStream (mapRow : Row → Except Exn Item) : StreamKind Row Item where
  Current := Option Item
  start := none
  reset _ := none
  load row current :=
    match mapRow row with
    | .ok entity => (none, some entity)
    | .error e => (some e, current)
  deref current := current

/-- The row of a reader, as a `RowStream` reads it. -/
structure ReaderRow where
  columnCount : ℕ
  isNull : ℕ → Bool
  getValue : ℕ → Except Exn BoundValue

namespace ReaderRow

variable (row : ReaderRow)

/-- The loop of a `RowStream` over the columns that are left. -/
def appendValues : ℕ → ℕ → List BoundValue → Option Exn × List BoundValue
  | 0, _, values => (none, values)
  | left + 1, i, values =>
    if row.isNull i then appendValues left (i + 1) (values ++ [.null])
    else
      match row.getValue i with
      | .ok v => appendValues left (i + 1) (values ++ [v])
      | .error e => (some e, values)

/-- The value of a column. -/
def value (i : ℕ) : Except Exn BoundValue :=
  if row.isNull i then .ok .null else row.getValue i

/-- The values of the columns of a row. -/
def values : Except Exn (List BoundValue) :=
  (List.range' 0 row.columnCount).mapM row.value

end ReaderRow

/-- A `RowStream`. -/
def rowStream : StreamKind ReaderRow (List BoundValue) where
  Current := List BoundValue
  start := []
  reset current := current
  load row _ := row.appendValues row.columnCount 0 []
  deref := some

/-- An iterator holds the item of a row that it has loaded. -/
def StreamKind.Loads (kind : StreamKind Row Item) (mapRow : Row → Except Exn Item) : Prop :=
  ∀ row current, match mapRow row with
    | .ok item => (kind.load row current).1 = none ∧
        kind.deref (kind.load row current).2 = some item
    | .error e => (kind.load row current).1 = some e

/-- An entity stream loads what the mapper makes. -/
theorem loads_entityStream (mapRow : Row → Except Exn Item) :
    (entityStream mapRow).Loads mapRow := by
  intro row current
  change match mapRow row with
    | .ok item => ((entityStream mapRow).load row current).1 = none ∧
        ((entityStream mapRow).load row current).2 = some item
    | .error e => ((entityStream mapRow).load row current).1 = some e
  simp only [entityStream]
  cases mapRow row with
  | ok item => exact ⟨rfl, rfl⟩
  | error e => rfl

/-- The loop over the columns reads the values in order. -/
theorem ReaderRow.appendValues_eq (row : ReaderRow) : ∀ (left i : ℕ) (values : List BoundValue),
    match (List.range' i left).mapM row.value with
    | .ok vs => row.appendValues left i values = (none, values ++ vs)
    | .error e => (row.appendValues left i values).1 = some e
  | 0, _, values => congrArg _ (List.append_nil values).symm
  | left + 1, i, values => by
    rw [List.range'_succ, List.mapM_cons, value, appendValues]
    have hrest : ∀ v, match (do
          let vs ← (List.range' (i + 1) left).mapM row.value
          return v :: vs) with
        | .ok vs => row.appendValues left (i + 1) (values ++ [v]) = (none, values ++ vs)
        | .error e => (row.appendValues left (i + 1) (values ++ [v])).1 = some e := fun v => by
      have ih := row.appendValues_eq left (i + 1) (values ++ [v])
      cases hvs : (List.range' (i + 1) left).mapM row.value with
      | ok vs =>
        rw [hvs] at ih
        exact ih.trans (by rw [List.append_assoc, List.singleton_append])
      | error e =>
        rw [hvs] at ih
        exact ih
    cases row.isNull i with
    | true => exact hrest .null
    | false =>
      cases row.getValue i with
      | error e => rfl
      | ok v => exact hrest v

/-- A row stream loads the values of the row. -/
theorem loads_rowStream : rowStream.Loads ReaderRow.values := by
  intro row current
  have h := row.appendValues_eq row.columnCount 0 []
  rw [← ReaderRow.values] at h
  cases hvalues : row.values with
  | ok vs =>
    rw [hvalues] at h
    exact ⟨congrArg Prod.fst h, congrArg (some ∘ Prod.snd) h⟩
  | error e =>
    rw [hvalues] at h
    exact h

/-! ## What a consumer is due -/

/-- What the row or the exception of a call of `next` gives. -/
def Outcome.ofNext (mapRow : Row → Except Exn Item) (next : Except Exn Row) : Outcome Item :=
  match next >>= mapRow with
  | .ok item => .yields (some item)
  | .error e => .throws e

theorem Outcome.ofNext_of_ok {mapRow : Row → Except Exn Item} {row : Row} {item : Item}
    (h : mapRow row = .ok item) : Outcome.ofNext mapRow (.ok row) = .yields (some item) := by
  change (match mapRow row with
    | .ok item => Outcome.yields (some item)
    | .error e => .throws e) = _
  rw [h]

theorem Outcome.ofNext_of_error {mapRow : Row → Except Exn Item} {row : Row} {e : Exn}
    (h : mapRow row = .error e) : Outcome.ofNext mapRow (.ok row) = .throws e := by
  change (match mapRow row with
    | .ok item => Outcome.yields (some item)
    | .error e => .throws e) = _
  rw [h]

/-- The advance from which the token is requested. -/
def stopPoint (token : Option StopToken) : Option ℕ :=
  token.bind (·.requestedAt)

/-- An advance before the stop gives what the reader has for its call, the one that finds the token
requested while there is data throws, and those after it, as after the data, find the end. -/
def Outcome.at (mapRow : Row → Except Exn Item) (script : List (Except Exn Row)) (stop : Option ℕ)
    (k : ℕ) : Outcome Item :=
  if stop.any (· ≤ k) then
    if stop = some k ∧ k ≤ script.length then .throws cancelledByStopToken else .ended
  else
    match script[k]? with
    | some next => .ofNext mapRow next
    | none => .ended

/-- The part of a script before the stop. -/
def beforeStop {α : Type} (stop : Option ℕ) (script : List α) : List α :=
  stop.elim script script.take

/-- The exception of a stop that comes before the end of the data is known. -/
def stopExn (script : List (Except Exn Row)) (stop : Option ℕ) : Option Exn :=
  if stop.any (· ≤ script.length) then some cancelledByStopToken else none

/-- The calls of `next` in a number of advances : one each, until the end is found or the stop. -/
def nextCalls (script : List (Except Exn Row)) (stop : Option ℕ) (n : ℕ) : ℕ :=
  min (stop.elim n (min n)) (script.length + 1)

/-- The iterator after a number of advances. -/
def AfterAdvances {kind : StreamKind Row Item} (script : List (Except Exn Row)) (stop : Option ℕ)
    (n : ℕ) (it : StreamIterator kind) : Prop :=
  it.reader = some ⟨script.drop (nextCalls script stop n), nextCalls script stop n⟩ ∧
    (it.isEnd = true ↔ (beforeStop stop script).length < n)

/-- A token is signalled from one call of `next` on. -/
theorem stopRequested_eq (token : Option StopToken) (k : ℕ) :
    stopRequested token k = (stopPoint token).any (· ≤ k) := by
  cases token with
  | none => rfl
  | some t => rfl

/-- Before the signal there are no more rows than calls. -/
theorem length_beforeStop {α : Type} (stop : Option ℕ) (script : List α) :
    (beforeStop stop script).length = stop.elim script.length (min · script.length) := by
  cases stop with
  | none => rfl
  | some p => exact List.length_take

section

variable {kind : StreamKind Row Item} {mapRow : Row → Except Exn Item}
variable {script : List (Except Exn Row)} {stop : Option ℕ} {n : ℕ} {it : StreamIterator kind}

/-- Before the end, each advance has called `next`. -/
theorem nextCalls_of_le (h : n ≤ (beforeStop stop script).length) :
    nextCalls script stop n = n := by
  rw [length_beforeStop] at h
  cases stop with
  | none =>
    have hn : n ≤ script.length := h
    exact min_eq_left (hn.trans (Nat.le_succ _))
  | some p =>
    have hn : n ≤ min p script.length := h
    change min (min n p) (script.length + 1) = n
    omega

/-- The advance that finds the end of the data calls `next`. -/
theorem nextCalls_succ_of_le (h : n ≤ (beforeStop stop script).length)
    (hstop : stop.any (· ≤ n) = false) : nextCalls script stop (n + 1) = n + 1 := by
  rw [length_beforeStop] at h
  cases stop with
  | none =>
    have hn : n ≤ script.length := h
    exact min_eq_left (Nat.succ_le_succ hn)
  | some p =>
    have hn : n ≤ min p script.length := h
    have hp : ¬ p ≤ n := of_decide_eq_false hstop
    change min (min (n + 1) p) (script.length + 1) = n + 1
    omega

/-- After the end `next` is not called. -/
theorem nextCalls_succ_of_lt (h : (beforeStop stop script).length < n) :
    nextCalls script stop (n + 1) = nextCalls script stop n := by
  rw [length_beforeStop] at h
  cases stop with
  | none =>
    have hn : script.length < n := h
    change min (n + 1) (script.length + 1) = min n (script.length + 1)
    omega
  | some p =>
    have hn : min p script.length < n := h
    change min (min (n + 1) p) (script.length + 1) = min (min n p) (script.length + 1)
    omega

/-- The first advance that finds the token requested, before the end. -/
theorem eq_stop_of_le (h : n ≤ (beforeStop stop script).length) (hstop : stop.any (· ≤ n) = true) :
    stop = some n ∧ n ≤ script.length ∧ nextCalls script stop (n + 1) = n ∧
      (beforeStop stop script).length = n := by
  rw [length_beforeStop] at h ⊢
  cases stop with
  | none => contradiction
  | some p =>
    have hn : n ≤ min p script.length := h
    have hp : p ≤ n := of_decide_eq_true hstop
    obtain rfl : p = n := by omega
    refine ⟨rfl, by omega, ?_, ?_⟩
    · change min (min (p + 1) p) (script.length + 1) = p
      omega
    · change min p script.length = p
      omega

theorem length_beforeStop_of_not_any (hstop : stop.any (· ≤ n) = false) :
    n < (beforeStop stop script).length ↔ n < script.length := by
  rw [length_beforeStop]
  cases stop with
  | none => exact Iff.rfl
  | some p =>
    have hp : ¬ p ≤ n := of_decide_eq_false hstop
    change n < min p script.length ↔ _
    omega

theorem Outcome.at_of_lt (h : (beforeStop stop script).length < n) :
    Outcome.at mapRow script stop n = .ended := by
  rw [Outcome.at]
  split
  · rename_i hstop
    rw [if_neg]
    rintro ⟨rfl, hn⟩
    rw [length_beforeStop] at h
    have hlt : min n script.length < n := h
    omega
  · rename_i hstop
    have hlt : ¬ n < (beforeStop stop script).length ↔ ¬ n < script.length :=
      (length_beforeStop_of_not_any (Bool.not_eq_true _ ▸ hstop)).not
    rw [List.getElem?_eq_none (by omega)]

/-- An iterator at its end stays there, and the reader is left alone. -/
theorem StreamIterator.advance_of_isEnd (h : it.isEnd = true) (requested : Bool) :
    it.advance requested = (none, { it with isEnd := true, current := kind.reset it.current }) := by
  rw [advance, h]

/-- Behind the end nothing happens. -/
theorem StreamIterator.advance_of_reader_none (h : it.reader = none) (requested : Bool) :
    it.advance requested = (none, ⟨none, true, kind.reset it.current⟩) := by
  obtain ⟨reader, isEnd, current⟩ := it
  obtain rfl : reader = none := h
  cases isEnd with
  | false => rfl
  | true => rfl

/-- A row that is loaded is what the iterator shows. -/
theorem outcome_load (hloads : kind.Loads mapRow) (h : it.isEnd = false)
    (reader : Option (DataReader Row)) (row : Row) :
    StreamIterator.outcome ((kind.load row it.current).1,
      (⟨reader, it.isEnd, (kind.load row it.current).2⟩ : StreamIterator kind)) =
        .ofNext mapRow (.ok row) := by
  have hload := hloads row it.current
  cases hmap : mapRow row with
  | error e =>
    rw [hmap] at hload
    rw [hload, Outcome.ofNext_of_error hmap]
    rfl
  | ok item =>
    rw [hmap] at hload
    rw [hload.1, Outcome.ofNext_of_ok hmap, StreamIterator.outcome, h]
    exact congrArg Outcome.yields hload.2

/-- One advance. -/
theorem AfterAdvances.step (hloads : kind.Loads mapRow) (h : AfterAdvances script stop n it) :
    StreamIterator.outcome (it.advance (stop.any (· ≤ n))) = .at mapRow script stop n ∧
      AfterAdvances script stop (n + 1) (it.advance (stop.any (· ≤ n))).2 := by
  obtain ⟨hreader, hend⟩ := h
  by_cases hlt : (beforeStop stop script).length < n
  · rw [StreamIterator.advance_of_isEnd (hend.mpr hlt), Outcome.at_of_lt hlt]
    refine ⟨rfl, ?_, iff_of_true rfl (hlt.trans n.lt_succ_self)⟩
    rw [nextCalls_succ_of_lt hlt]
    exact hreader
  have hle := not_lt.mp hlt
  have hfalse : it.isEnd = false := Bool.eq_false_iff.mpr fun htrue => hlt (hend.mp htrue)
  rw [nextCalls_of_le hle] at hreader
  cases hstop : stop.any (· ≤ n) with
  | true =>
    obtain ⟨hpoint, hn, hcalls, hlength⟩ := eq_stop_of_le hle hstop
    have hadvance : it.advance true = (some cancelledByStopToken,
        { it with isEnd := true, current := kind.reset it.current }) := by
      rw [StreamIterator.advance, hfalse, hreader]
      rfl
    rw [hadvance, Outcome.at, hstop, if_pos rfl, if_pos ⟨hpoint, hn⟩]
    refine ⟨rfl, ?_, iff_of_true rfl (by omega)⟩
    rw [hcalls]
    exact hreader
  | false =>
    have hcalls := nextCalls_succ_of_le hle hstop
    have hmore : n < (beforeStop stop script).length ↔ n < script.length :=
      length_beforeStop_of_not_any hstop
    have hget : script[n]? = (script.drop n).head? := List.head?_drop.symm
    have htail : script.drop (n + 1) = (script.drop n).tail := List.tail_drop.symm
    rw [Outcome.at, hstop, if_neg Bool.false_ne_true, hget, AfterAdvances, hcalls, htail]
    cases hdrop : script.drop n with
    | nil =>
      have hlength : script.length ≤ n := List.drop_eq_nil_iff.mp hdrop
      have hadvance : it.advance false =
          (none, ⟨some ⟨[], n + 1⟩, true, kind.reset it.current⟩) := by
        rw [StreamIterator.advance, hfalse, hreader, hdrop]
        rfl
      rw [hadvance]
      exact ⟨rfl, rfl, iff_of_true rfl (by omega)⟩
    | cons next rest =>
      have hlength : n < script.length := by
        by_contra hge
        rw [List.drop_eq_nil_of_le (not_lt.mp hge)] at hdrop
        contradiction
      have hnot : ¬ (beforeStop stop script).length < n + 1 := by omega
      cases next with
      | error e =>
        have hadvance : it.advance false =
            (some e, { it with reader := some ⟨rest, n + 1⟩ }) := by
          rw [StreamIterator.advance, hfalse, hreader, hdrop]
          rfl
        rw [hadvance]
        refine ⟨rfl, rfl, iff_of_false ?_ hnot⟩
        rw [hfalse]
        exact Bool.false_ne_true
      | ok row =>
        have hadvance : it.advance false = ((kind.load row it.current).1,
            ⟨some ⟨rest, n + 1⟩, it.isEnd, (kind.load row it.current).2⟩) := by
          rw [StreamIterator.advance, hfalse, hreader, hdrop]
          rfl
        rw [hadvance]
        refine ⟨outcome_load hloads hfalse _ row, rfl, iff_of_false ?_ hnot⟩
        rw [hfalse]
        exact Bool.false_ne_true

variable (kind) (script) (token : Option StopToken)

/-- Every number of advances. -/
theorem advances_eq (hloads : kind.Loads mapRow) : ∀ n,
    (kind.advances (some ⟨script, 0⟩) token n).1 =
        (List.range n).map (.at mapRow script (stopPoint token)) ∧
      AfterAdvances script (stopPoint token) n (kind.advances (some ⟨script, 0⟩) token n).2
  | 0 => by
    have hcalls : nextCalls script (stopPoint token) 0 = 0 := nextCalls_of_le (Nat.zero_le _)
    refine ⟨rfl, ?_, iff_of_false Bool.false_ne_true (Nat.not_lt_zero _)⟩
    rw [hcalls]
    rfl
  | n + 1 => by
    obtain ⟨houtcomes, hafter⟩ := advances_eq hloads n
    have hstep := hafter.step hloads
    rw [← stopRequested_eq] at hstep
    refine ⟨?_, hstep.2⟩
    rw [StreamKind.advances, List.range_succ, List.map_append, List.map_singleton, ← houtcomes,
      ← hstep.1]

/-- Without a reader there is only the end. -/
theorem advances_none : ∀ n,
    (kind.advances none token n).1 = .replicate n .ended ∧
      (kind.advances none token n).2.reader = none
  | 0 => ⟨rfl, rfl⟩
  | n + 1 => by
    obtain ⟨houtcomes, hreader⟩ := advances_none n
    have hadvance := StreamIterator.advance_of_reader_none hreader (stopRequested token n)
    refine ⟨?_, congrArg (fun result => result.2.reader) hadvance⟩
    rw [List.replicate_succ', ← houtcomes]
    exact congrArg (fun result => _ ++ [StreamIterator.outcome result]) hadvance

end

/-! ## Loops -/

/-- The exception of an outcome that ends a loop, if it does and there is one. -/
def Outcome.exit : Outcome Item → Option (Option Exn)
  | .yields _ => none
  | .throws e => some (some e)
  | .ended => some none

/-- A loop yields the items before the first outcome that ends it. -/
theorem forLoop_map_range {thrown : Option Exn} : ∀ {items : List Item} {f : ℕ → Outcome Item},
    (∀ k item, items[k]? = some item → f k = .yields (some item)) →
      (f items.length).exit = some thrown → ∀ n, forLoop ((List.range n).map f) =
        ((items.take n).map some, if items.length < n then thrown else none)
  | items, f, hitems, hexit, 0 => by
    rw [List.take_zero, if_neg (Nat.not_lt_zero _)]
    rfl
  | [], f, hitems, hexit, n + 1 => by
    rw [List.range_succ_eq_map, List.map_cons]
    change (f 0).exit = some thrown at hexit
    cases hfirst : f 0 with
    | yields item =>
      rw [hfirst] at hexit
      contradiction
    | throws e =>
      rw [hfirst] at hexit
      rw [← Option.some.inj hexit]
      rfl
    | ended =>
      rw [hfirst] at hexit
      rw [← Option.some.inj hexit]
      rfl
  | item :: items, f, hitems, hexit, n + 1 => by
    have hrest := @forLoop_map_range thrown items (fun k => f (k + 1))
      (fun k item hk => hitems (k + 1) item hk) hexit n
    rw [List.range_succ_eq_map, List.map_cons, List.map_map, hitems 0 item rfl]
    have hloop : forLoop (.yields (some item) :: (List.range n).map fun k => f (k + 1)) = _ :=
      congrArg (fun r : List (Option Item) × Option Exn => (some item :: r.1, r.2)) hrest
    refine hloop.trans ?_
    rw [List.take_succ_cons, List.map_cons, List.length_cons]
    simp only [Nat.succ_lt_succ_iff]

section

variable {mapRow : Row → Except Exn Item}

/-- A list that is read whole begins with its first row. -/
theorem listRows_cons_eq_ok {row : Row} {script : List (Except Exn Row)} {items : List Item}
    (h : listRows mapRow (.ok row :: script) = .ok items) :
    ∃ item rest, mapRow row = .ok item ∧ listRows mapRow script = .ok rest ∧
      item :: rest = items := by
  change (mapRow row >>= fun item => listRows mapRow script >>= fun rest => .ok (item :: rest)) =
    .ok items at h
  cases hmap : mapRow row with
  | error e =>
    rw [hmap] at h
    contradiction
  | ok item =>
    cases hrest : listRows mapRow script with
    | error e =>
      rw [hmap, hrest] at h
      contradiction
    | ok rest =>
      rw [hmap, hrest] at h
      exact ⟨item, rest, rfl, rfl, Except.ok.inj h⟩

/-- The items of `to_list` are those that the calls give, one each. -/
theorem listRows_eq_ok : ∀ {script : List (Except Exn Row)} {items : List Item},
    listRows mapRow script = .ok items → items.length = script.length ∧
      ∀ (k : ℕ) (item : Item), items[k]? = some item →
        ∃ next, script[k]? = some next ∧ Outcome.ofNext mapRow next = .yields (some item)
  | [], items, h => by
    obtain rfl : [] = items := Except.ok.inj h
    refine ⟨rfl, fun k item hk => ?_⟩
    rw [List.getElem?_nil] at hk
    contradiction
  | .error e :: _, _, h => by
    change Except.error e = Except.ok _ at h
    contradiction
  | .ok row :: script, all, h => by
    obtain ⟨item, rest, hmap, hrest, rfl⟩ := listRows_cons_eq_ok h
    obtain ⟨hlength, hitems⟩ := listRows_eq_ok hrest
    refine ⟨congrArg (· + 1) hlength, fun k item' hk => ?_⟩
    cases k with
    | zero =>
      rw [← Option.some.inj hk]
      exact ⟨.ok row, rfl, Outcome.ofNext_of_ok hmap⟩
    | succ k => exact hitems k item' hk

/-- The outcomes before the stop and the end. -/
theorem Outcome.at_of_lt_stop {script : List (Except Exn Row)} {stop : Option ℕ} {k : ℕ}
    {next : Except Exn Row} (h : (beforeStop stop script)[k]? = some next) :
    Outcome.at mapRow script stop k = .ofNext mapRow next := by
  have hget : stop.any (· ≤ k) = false ∧ script[k]? = some next := by
    cases stop with
    | none => exact ⟨rfl, h⟩
    | some p =>
      have htake : (script.take p)[k]? = some next := h
      rw [List.getElem?_take] at htake
      split at htake
      · rename_i hlt
        exact ⟨decide_eq_false (not_le.mpr hlt), htake⟩
      · contradiction
  rw [Outcome.at, if_neg (Bool.eq_false_iff.mp hget.1), hget.2]

/-- The outcome of the advance that finds the stop, or the end. -/
theorem Outcome.exit_at (script : List (Except Exn Row)) (stop : Option ℕ) :
    (Outcome.at mapRow script stop (beforeStop stop script).length).exit =
      some (stopExn script stop) := by
  rw [length_beforeStop, Outcome.at, stopExn]
  cases stop with
  | none =>
    change (match script[script.length]? with
      | some next => Outcome.ofNext mapRow next
      | none => Outcome.ended).exit = some none
    rw [List.getElem?_eq_none le_rfl]
    rfl
  | some p =>
    change (if decide (p ≤ min p script.length) = true then
        if some p = some (min p script.length) ∧ min p script.length ≤ script.length then
          Outcome.throws cancelledByStopToken else .ended
      else match script[min p script.length]? with
        | some next => Outcome.ofNext mapRow next
        | none => Outcome.ended).exit =
      some (if decide (p ≤ script.length) = true then some cancelledByStopToken else none)
    by_cases hp : p ≤ script.length
    · rw [min_eq_left hp, if_pos (decide_eq_true le_rfl), if_pos ⟨rfl, hp⟩,
        if_pos (decide_eq_true hp)]
      rfl
    · have hlt := not_le.mp hp
      rw [min_eq_right hlt.le, decide_eq_false hp, if_neg Bool.false_ne_true,
        if_neg Bool.false_ne_true, List.getElem?_eq_none le_rfl]
      rfl

section

variable {kind : StreamKind Row Item} {script : List (Except Exn Row)} {token : Option StopToken}

/-- A loop ends at the stop or at the end of the data, if nothing is thrown before. -/
theorem forLoop_advances (hloads : kind.Loads mapRow) {items : List Item}
    (h : listRows mapRow (beforeStop (stopPoint token) script) = .ok items) (n : ℕ) :
    forLoop (kind.advances (some ⟨script, 0⟩) token n).1 = ((items.take n).map some,
      if items.length < n then stopExn script (stopPoint token) else none) := by
  obtain ⟨hlength, hitems⟩ := listRows_eq_ok h
  rw [(advances_eq kind script token hloads n).1]
  refine forLoop_map_range (fun k item hk => ?_) ?_ n
  · obtain ⟨next, hnext, hyields⟩ := hitems k item hk
    rw [Outcome.at_of_lt_stop hnext, hyields]
  · rw [hlength]
    exact Outcome.exit_at script (stopPoint token)

/-- A loop ends at the first exception before the stop. -/
theorem forLoop_advances_throws (hloads : kind.Loads mapRow) {before after : List (Except Exn Row)}
    {next : Except Exn Row} {items : List Item} {e : Exn}
    (hscript : beforeStop (stopPoint token) script = before ++ next :: after)
    (h : listRows mapRow before = .ok items) (hnext : Outcome.ofNext mapRow next = .throws e)
    (n : ℕ) :
    forLoop (kind.advances (some ⟨script, 0⟩) token n).1 =
      ((items.take n).map some, if items.length < n then some e else none) := by
  obtain ⟨hlength, hitems⟩ := listRows_eq_ok h
  rw [(advances_eq kind script token hloads n).1]
  refine forLoop_map_range (fun k item hk => ?_) ?_ n
  · obtain ⟨next, hnext, hyields⟩ := hitems k item hk
    have hlt : k < before.length := (List.getElem?_eq_some_iff.mp hnext).1
    have hget : (beforeStop (stopPoint token) script)[k]? = some next := by
      rw [hscript, List.getElem?_append_left hlt, hnext]
    rw [Outcome.at_of_lt_stop hget, hyields]
  · have hget : (beforeStop (stopPoint token) script)[items.length]? = some next := by
      rw [hscript, hlength, List.getElem?_append_right le_rfl, Nat.sub_self]
      rfl
    rw [Outcome.at_of_lt_stop hget, hnext]
    rfl

end

/-- Of a list that is read, any beginning is read. -/
theorem listRows_take {script : List (Except Exn Row)} {items : List Item}
    (h : listRows mapRow script = .ok items) (p : ℕ) :
    listRows mapRow (script.take p) = .ok (items.take p) := by
  induction script generalizing items p with
  | nil =>
    obtain rfl : [] = items := Except.ok.inj h
    rw [List.take_nil, List.take_nil]
    rfl
  | cons next script ih =>
    cases p with
    | zero => rfl
    | succ p =>
      cases next with
      | error e =>
        change Except.error e = Except.ok _ at h
        contradiction
      | ok row =>
        obtain ⟨item, rest, hmap, hrest, rfl⟩ := listRows_cons_eq_ok h
        rw [List.take_succ_cons, List.take_succ_cons]
        change (mapRow row >>= fun item => listRows mapRow (script.take p) >>= fun rest =>
          .ok (item :: rest)) = _
        rw [hmap, ih hrest p]
        rfl

theorem listRows_beforeStop {script : List (Except Exn Row)} {items : List Item}
    (h : listRows mapRow script = .ok items) (stop : Option ℕ) :
    listRows mapRow (beforeStop stop script) = .ok (beforeStop stop items) := by
  cases stop with
  | none => exact h
  | some p => exact listRows_take h p

end

theorem beforeStop_of_stopExn_eq_none {script : List (Except Exn Row)} {items : List Item}
    {stop : Option ℕ} (h : items.length ≤ script.length) (hstop : stopExn script stop = none) :
    beforeStop stop items = items := by
  cases stop with
  | none => rfl
  | some p =>
    have hp : ¬ p ≤ script.length := fun hle => by
      have hthrown : stopExn script (some p) = some cancelledByStopToken :=
        if_pos (decide_eq_true hle)
      rw [hthrown] at hstop
      contradiction
    exact List.take_of_length_le (h.trans (not_le.mp hp).le)

/-! ## Streams and lists -/

/-- How a stream of a reader goes, with a stop token that is requested between two advances or
never. -/
structure StreamsRows (kind : StreamKind Row Item) (mapRow : Row → Except Exn Item)
    (script : List (Except Exn Row)) (token : Option StopToken) : Prop where
  /-- Every advance gives what it is due, however many there are. -/
  outcomes : ∀ n, (kind.advances (some ⟨script, 0⟩) token n).1 =
    (List.range n).map (.at mapRow script (stopPoint token))
  /-- `next` is called before the stop and the end alone. -/
  calls : ∀ n, (kind.advances (some ⟨script, 0⟩) token n).2.reader.map (·.calls) =
    some (nextCalls script (stopPoint token) n)
  /-- The iterator equals the sentinel after the stop and after the end. -/
  isEnd : ∀ n, (kind.advances (some ⟨script, 0⟩) token n).2.isEnd = true ↔
    (beforeStop (stopPoint token) script).length < n
  /-- A loop yields the items of the rows before the stop. -/
  loops : ∀ items, listRows mapRow (beforeStop (stopPoint token) script) = .ok items → ∀ n,
    forLoop (kind.advances (some ⟨script, 0⟩) token n).1 = ((items.take n).map some,
      if items.length < n then stopExn script (stopPoint token) else none)
  /-- A loop yields the items of the rows before an exception of the reader. -/
  throws : ∀ before next after items e,
    beforeStop (stopPoint token) script = before ++ next :: after →
    listRows mapRow before = .ok items → .ofNext mapRow next = Outcome.throws e → ∀ n,
      forLoop (kind.advances (some ⟨script, 0⟩) token n).1 =
        ((items.take n).map some, if items.length < n then some e else none)
  /-- What a loop yields begins what `to_list` returns. -/
  isPrefix : ∀ items, listRows mapRow script = .ok items → ∀ n,
    (forLoop (kind.advances (some ⟨script, 0⟩) token n).1).1 <+: items.map some
  /-- A loop that is not stopped yields all of it. -/
  whole : ∀ items, listRows mapRow script = .ok items →
    stopExn script (stopPoint token) = none → ∀ n, script.length < n →
      forLoop (kind.advances (some ⟨script, 0⟩) token n).1 = (items.map some, none)

/-- A stream whose rows are loaded gives them in order, then ends or throws. -/
theorem StreamKind.Loads.streamsRows {kind : StreamKind Row Item} {mapRow : Row → Except Exn Item}
    (hloads : kind.Loads mapRow) (script : List (Except Exn Row)) (token : Option StopToken) :
    StreamsRows kind mapRow script token where
  outcomes n := (advances_eq kind script token hloads n).1
  calls n := by
    rw [(advances_eq kind script token hloads n).2.1]
    rfl
  isEnd n := (advances_eq kind script token hloads n).2.2
  loops _ h := forLoop_advances hloads h
  throws _ _ _ _ _ hscript h hnext := forLoop_advances_throws hloads hscript h hnext
  isPrefix items h n := by
    rw [forLoop_advances hloads (listRows_beforeStop h (stopPoint token)) n]
    refine List.IsPrefix.map some ((List.take_prefix n _).trans ?_)
    cases stopPoint token with
    | none => exact List.prefix_rfl
    | some p => exact List.take_prefix p items
  whole items h hstop n hn := by
    have hlength := (listRows_eq_ok h).1
    rw [forLoop_advances hloads (listRows_beforeStop h (stopPoint token)) n, hstop, ite_self,
      beforeStop_of_stopExn_eq_none hlength.le hstop,
      List.take_of_length_le (hlength.trans_lt hn).le]

/-- A stream of entities, and one of rows, gives what `to_list` does of the same reader up to its
cancellation. -/
theorem streams_rows (mapRow : Row → Except Exn Item) (script : List (Except Exn Row))
    (rawScript : List (Except Exn ReaderRow)) (token : Option StopToken) :
    StreamsRows (entityStream mapRow) mapRow script token ∧
      StreamsRows rowStream ReaderRow.values rawScript token :=
  ⟨(loads_entityStream mapRow).streamsRows script token,
    loads_rowStream.streamsRows rawScript token⟩

end

end CppLinq
