/-!
# Elapsed times

A time span in words, from years down to milliseconds. A year has 365 days and a
quarter, and a month is the twelfth part of it. Parts that are zero are left
out, and less than a millisecond is all one.
-/

namespace Deflow

/-- A time span in nanoseconds. -/
structure Duration where
  nanoseconds : Nat := 0
deriving DecidableEq, Repr

namespace Duration

/-- The whole milliseconds of a time span, as an unsigned number of 64 bits. -/
def milliseconds (duration : Duration) : Nat :=
  duration.nanoseconds / 1000000 % UInt64.size

/-- A unit of time: its length in seconds, its name, and whether more than one
takes a plural. -/
structure TimeUnit where
  seconds : Nat
  name : String
  plural : Bool

/-- The units from a second upwards, longest first. -/
def units : List TimeUnit :=
  [⟨31557600, "year", true⟩, ⟨2630016, "month", true⟩, ⟨86400, "day", true⟩, ⟨3600, "h", false⟩,
   ⟨60, "m", false⟩, ⟨1, "s", false⟩]

/-- So many of a unit, in words. -/
def amount (count : Nat) (unit : TimeUnit) : String :=
  count.repr ++ unit.name ++ if unit.plural && count > 1 then "s" else ""

/-- So many seconds in units, each taken as often as it goes. -/
def inUnits : List TimeUnit → (seconds : Nat) → List String
  | [], _ => []
  | unit :: units, seconds =>
    let count := seconds / unit.seconds
    let rest := inUnits units (seconds % unit.seconds)
    if count = 0 then rest else amount count unit :: rest

/-- A time span in words. -/
def render (duration : Duration) : String :=
  let total := duration.milliseconds
  if total = 0 then
    "<1ms"
  else
    let rest := total % 1000
    " ".intercalate <|
      inUnits units (total / 1000) ++ if rest = 0 then [] else [rest.repr ++ "ms"]

end Duration

end Deflow
