import Mathlib.Data.Nat.Notation

/-!
# Bound values

The values a statement parameter can hold (`mapping/data_types.h`). `SqlValue`, the
literal of an expression tree, and `BoundValue`, what a driver binds, are variants over
the same alternatives in the source, so one type serves both.

A `std::string` is a sequence of bytes : it is a `String` whose characters are below
`256`. A `std::wstring` is its list of code units.
-/

namespace CppLinq

/-- A double, by its bits. -/
structure Double where
  bits : UInt64
  deriving DecidableEq, Repr

/-- `SqlNumeric` : a decimal numeral with its precision and scale. -/
structure SqlNumeric where
  value : String := "0"
  precision : UInt8 := 0
  scale : Int8 := 0
  isNegative : Bool := false
  deriving DecidableEq, Repr

/-- `SqlDate`. -/
structure SqlDate where
  year : Int16 := 1970
  month : UInt8 := 1
  day : UInt8 := 1
  deriving DecidableEq, Repr

/-- `SqlTime`, its fraction in nanoseconds. -/
structure SqlTime where
  hour : UInt8 := 0
  minute : UInt8 := 0
  second : UInt8 := 0
  fraction : UInt32 := 0
  deriving DecidableEq, Repr

/-- `SqlTimestamp`. -/
structure SqlTimestamp where
  year : Int16 := 1970
  month : UInt8 := 1
  day : UInt8 := 1
  hour : UInt8 := 0
  minute : UInt8 := 0
  second : UInt8 := 0
  fraction : UInt32 := 0
  tzOffsetMinutes : Int16 := 0
  deriving DecidableEq, Repr

/-- `SqlInterval::Type`. -/
inductive IntervalType
  | year | month | day | hour | minute | second
  | yearToMonth | dayToHour | dayToMinute | dayToSecond
  | hourToMinute | hourToSecond | minuteToSecond
  deriving DecidableEq, Repr

/-- `SqlInterval`. -/
structure SqlInterval where
  type : IntervalType := .dayToSecond
  isNegative : Bool := false
  years : UInt32 := 0
  months : UInt32 := 0
  days : UInt32 := 0
  hours : UInt32 := 0
  minutes : UInt32 := 0
  seconds : UInt32 := 0
  fraction : UInt32 := 0
  deriving DecidableEq, Repr

/-- `SqlGuid`. -/
structure SqlGuid where
  bytes : Vector UInt8 16
  deriving DecidableEq, Repr

/-- `BoundValue` : NULL, or a value of one of the thirteen SQL value types. -/
inductive BoundValue
  | null
  | int64 (v : Int64)
  | uint64 (v : UInt64)
  | double (v : Double)
  | string (v : String)
  | wstring (v : List UInt32)
  | bool (v : Bool)
  | blob (v : List UInt8)
  | numeric (v : SqlNumeric)
  | date (v : SqlDate)
  | time (v : SqlTime)
  | timestamp (v : SqlTimestamp)
  | interval (v : SqlInterval)
  | guid (v : SqlGuid)
  deriving DecidableEq, Repr

/-- The value of a literal node. -/
abbrev SqlValue := BoundValue

/-- What a prepared statement binds at a position : the argument with an index, given at
execution, or a value fixed when the text was generated. -/
inductive ParameterSlot
  | dynamic (index : ℕ)
  | static (value : BoundValue)
  deriving DecidableEq, Repr

/-- What the library throws, by exception class and message. -/
inductive Exn
  | invalidArgument (what : String)
  | dbException (what : String)
  | operationCancelled (what : String)
  deriving DecidableEq, Repr

end CppLinq
