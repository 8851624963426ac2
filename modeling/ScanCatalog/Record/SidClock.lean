import ScanCatalog.Action
import ScanCatalog.Value.Conversion

/-!
# The sid clock

A record without a start time of its own gets its sid from a clock: the time in
seconds, or the next greater number if the clock has already given that out.

## Main definitions

* `Clock`: the readings of a clock to come, in nanoseconds;
* `SidClock`: a clock and the last sid it gave out;
* `SidClock.next`: the next sid.
-/

namespace ScanCatalog

/-- A clock by its readings in nanoseconds. After the last reading of the list each
reading is a second later than the one before. -/
structure Clock where
  readings : List Int
  latest : Int
deriving DecidableEq, Repr

namespace Clock

/-- A second in nanoseconds. -/
def second : Int := 1000000000

/-- The clock that gives these readings first. -/
def ofReadings (readings : List Int) : Clock := ⟨readings, 1699999999000000000⟩

/-- The next reading, and the clock after it. -/
def read (clock : Clock) : Int × Clock :=
  match clock.readings with
  | [] => (clock.latest + second, ⟨[], clock.latest + second⟩)
  | reading :: rest => (reading, ⟨rest, reading⟩)

end Clock

/-- A clock and the last sid that was taken from it. -/
structure SidClock where
  clock : Clock
  last : Binary64
deriving DecidableEq, Repr

namespace SidClock

/-- A sid clock that has given out nothing yet. -/
def ofReadings (readings : List Int) : SidClock := ⟨Clock.ofReadings readings, .zero⟩

/-- The number of seconds of a reading: the reading is rounded, and then the
quotient. -/
def seconds (reading : Int) : Except ValueFault Binary64 :=
  (Binary64.ofInt reading).map fun x => x.divideBy 1000000000

/-- The sid after `last` for a reading of so many seconds. -/
def after (last seconds : Binary64) : Binary64 :=
  if seconds.atMost last then last.next else seconds

/-- The sid for a reading of so many seconds, and what is left of the clock. A reading
without a number of seconds gives no sid. -/
def give (s : SidClock) (clock : Clock) :
    Except ValueFault Binary64 → Except Fault Binary64 × SidClock
  | .ok x => (.ok (after s.last x), ⟨clock, after s.last x⟩)
  | .error fault => (.error fault, ⟨clock, s.last⟩)

/-- The next sid. -/
def next : Action SidClock Binary64 := fun s =>
  s.give s.clock.read.2 (seconds s.clock.read.1)

end SidClock

end ScanCatalog
