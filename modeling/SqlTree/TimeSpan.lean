/-!
# Time spans

A number of units of time, as in `10 SECONDS`, and its length in milliseconds, which stops at the
greatest 64-bit number.
-/

namespace SqlTree

/-- A unit of time. -/
inductive TimeUnit where
  | milliseconds | seconds | minutes | hours | days
deriving DecidableEq, Repr, Inhabited

namespace TimeUnit

def all : List TimeUnit := [milliseconds, seconds, minutes, hours, days]

def name : TimeUnit → String
  | milliseconds => "Milliseconds"
  | seconds => "Seconds"
  | minutes => "Minutes"
  | hours => "Hours"
  | days => "Days"

def text : TimeUnit → String
  | milliseconds => "MILLISECONDS"
  | seconds => "SECONDS"
  | minutes => "MINUTES"
  | hours => "HOURS"
  | days => "DAYS"

/-- The milliseconds in one unit. -/
def millis : TimeUnit → Nat
  | milliseconds => 1
  | seconds => 1000
  | minutes => 60 * 1000
  | hours => 60 * 60 * 1000
  | days => 24 * 60 * 60 * 1000

end TimeUnit

/-- A length of time. -/
structure TimeSpan where
  size : UInt64
  unit : TimeUnit
deriving DecidableEq, Repr, Inhabited

namespace TimeSpan

def text (s : TimeSpan) : String := toString s.size ++ " " ++ s.unit.text

/-- The length in milliseconds, or the greatest 64-bit number if it is longer. -/
def millis (s : TimeSpan) : Nat := min (s.size.toNat * s.unit.millis) (UInt64.size - 1)

end TimeSpan

end SqlTree
