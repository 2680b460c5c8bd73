/-
`TimeZone` (base/TimeZone.cc): the table of a zone, the search in it, and
local time out of an instant and back.

# Shape

A pointer to a `Localtime` is the entry it points at. What the source
does not check is an `.error` here: an entry of `localtimes` or a
character of `abbreviation` that is not there, `front()` of an empty
vector, and its assertions. A character may be taken at the end of the
string, where the terminating NUL is.

`gmtime_r` and `timegm` are the C library's, and parameters. The sums of
`time_t`s are exact: the times that `gmtime_r` has a year for are far
from the ends of 64 bits.

# What it is for

`Data.atUtc` is the entry in force at an instant and `Data.atLocal` the
one of the last transition that a local clock has seen, each by going
through the table from the front to the back.
-/
import Cobra.Lib.LowerBound
import Cobra.UtcTime

namespace Cobra.TimeZone

open Machine LowerBound

-- ============================================================= the tables

structure Transition where
  gmttime : Int
  localtime : Int
  localtimeIdx : Int
  deriving Repr, DecidableEq

structure Localtime where
  gmtOffset : Int
  isDst : Bool
  arrbIdx : Int
  deriving Repr, DecidableEq, Inhabited

structure Data where
  transitions : List Transition
  localtimes : List Localtime
  abbreviation : List UInt8
  deriving Repr, DecidableEq

/-- What the functions of a zone do not check. -/
inductive ZoneFault
  /-- `assert(data_ != NULL)` -/
  | noData
  /-- `assert(transI != data.transitions.begin())` -/
  | searchBegin
  | transitionsEnd
  | localtimesFront
  | localtimesIndex
  | abbreviationIndex
  deriving Repr, DecidableEq

structure Comp where
  compareGmt : Bool
  deriving Repr, DecidableEq

namespace Comp

/-- The time that a comparison looks at. -/
def key (comp : Comp) (t : Transition) : Int :=
  if comp.compareGmt then t.gmttime else t.localtime

/-- `operator()`. -/
def less (comp : Comp) (lhs rhs : Transition) : Bool :=
  if comp.compareGmt then lhs.gmttime < rhs.gmttime
  else lhs.localtime < rhs.localtime

def equal (comp : Comp) (lhs rhs : Transition) : Bool :=
  if comp.compareGmt then lhs.gmttime == rhs.gmttime
  else lhs.localtime == rhs.localtime

end Comp

/-- `data.localtimes.front()`. -/
def Data.front (data : Data) : Except ZoneFault Localtime :=
  match data.localtimes with
  | [] => .error .localtimesFront
  | first :: _ => .ok first

/-- `data.localtimes[idx]`. -/
def Data.at (data : Data) (idx : Int) : Except ZoneFault Localtime :=
  if idx < 0 then .error .localtimesIndex
  else
    match data.localtimes[idx.toNat]? with
    | some found => .ok found
    | none => .error .localtimesIndex

/-- `&data.abbreviation[idx]`: the characters from there on. -/
def Data.zone (data : Data) (idx : Int) : Except ZoneFault (List UInt8) := do
  require (0 ≤ idx ∧ idx ≤ data.abbreviation.length) .abbreviationIndex
  .ok (data.abbreviation.drop idx.toNat)

-- ============================================================= the search

/-- `data.localtimes[transI->localtimeIdx]`. -/
def Data.deref (data : Data) (transI : Option Transition) :
    Except ZoneFault Localtime :=
  match transI with
  | some t => data.at t.localtimeIdx
  | none => .error .transitionsEnd

/-- `findLocaltime` after `lower_bound` has returned `transI`. -/
def searched (data : Data) (sentry : Transition) (comp : Comp)
    (transI : Nat) : Except ZoneFault Localtime :=
  match data.transitions[transI]? with
  | some found =>
      if comp.equal sentry found then data.deref (some found)
      else do
        require (transI ≠ 0) .searchBegin
        data.deref data.transitions[transI - 1]?
  | none => data.deref data.transitions.getLast?

def findLocaltime (data : Data) (sentry : Transition) (comp : Comp) :
    Except ZoneFault Localtime :=
  match data.transitions with
  | [] => data.front
  | first :: _ =>
      if comp.less sentry first then data.front
      else
        searched data sentry comp
          (lowerBound (comp.less · sentry) data.transitions)

-- ========================================================== the local time

section Local

variable (gmtime_r : Int → Tm) (timegm : Tm → Int)

/-- `TimeZone::toLocalTime`, on the table. -/
def Data.toLocalTime (data : Data) (seconds : Int) : Except ZoneFault Tm := do
  let found ← findLocaltime data ⟨seconds, 0, 0⟩ ⟨true⟩
  let localSeconds := seconds + found.gmtOffset
  let zone ← data.zone found.arrbIdx
  .ok { gmtime_r localSeconds with
    isdst := if found.isDst then 1 else 0
    gmtoff := found.gmtOffset
    zone := some zone }

/-- The test for an hour that comes twice: an hour later in it there is no
daylight saving time any more, and the clock shows the same. -/
def SameMinute (tryTm localTm : Tm) : Prop :=
  tryTm.isdst = 0 ∧ tryTm.hour = localTm.hour ∧ tryTm.min = localTm.min

instance (tryTm localTm : Tm) : Decidable (SameMinute tryTm localTm) :=
  inferInstanceAs (Decidable (_ ∧ _))

/-- `TimeZone::fromLocalTime`, on the table. -/
def Data.fromLocalTime (data : Data) (localTm : Tm) :
    Except ZoneFault Int := do
  let seconds := timegm localTm
  let found ← findLocaltime data ⟨0, seconds, 0⟩ ⟨false⟩
  if localTm.isdst ≠ 0 then
    let tryTm ← data.toLocalTime gmtime_r (seconds - found.gmtOffset)
    if SameMinute tryTm localTm then
      .ok (seconds - 3600 - found.gmtOffset)
    else .ok (seconds - found.gmtOffset)
  else .ok (seconds - found.gmtOffset)

end Local

-- =========================================================== what it is for

/-- The entry of a transition; before the first one, the first entry. -/
def Data.entry (data : Data) : Option Transition → Localtime
  | none => data.localtimes.headD default
  | some t => data.localtimes.getD t.localtimeIdx.toNat default

/-- The entry of the last transition with a key of at most `k`. -/
def Data.scan (data : Data) (key : Transition → Int) (k : Int) : Localtime :=
  data.entry (lastAtMost key k data.transitions)

/-- The entry in force at an instant. -/
def Data.atUtc (data : Data) (t : Int) : Localtime :=
  data.scan (·.gmttime) t

/-- The entry that a local clock finds. -/
def Data.atLocal (data : Data) (w : Int) : Localtime :=
  data.scan (·.localtime) w

/-- The local clock at an instant, in seconds. -/
def Data.wall (data : Data) (t : Int) : Int := t + (data.atUtc t).gmtOffset

/-- Every transition has an entry, and there is one before the first. -/
structure Data.Indexed (data : Data) : Prop where
  nonempty : data.localtimes ≠ []
  transition : ∀ t ∈ data.transitions,
    0 ≤ t.localtimeIdx ∧ t.localtimeIdx < data.localtimes.length

/-- Every index of the table is in range. -/
structure Data.InRange (data : Data) : Prop extends data.Indexed where
  abbreviation : ∀ l ∈ data.localtimes,
    0 ≤ l.arrbIdx ∧ l.arrbIdx < data.abbreviation.length

/-- Increasing in what a comparison looks at. -/
def Data.Increasing (data : Data) (key : Transition → Int) : Prop :=
  data.transitions.Pairwise (key · < key ·)

/-- A zone: its transitions are in order, by the instants and by the local
clocks, and the local time of each is that of its entry. -/
structure Data.Zone (data : Data) : Prop extends data.InRange where
  by_gmttime : data.Increasing (·.gmttime)
  by_localtime : data.Increasing (·.localtime)
  localtime_eq : ∀ t ∈ data.transitions,
    t.localtime = t.gmttime + (data.entry t).gmtOffset

end Cobra.TimeZone

namespace Cobra

/-- The class: a table, or none if the file was no good. -/
structure TimeZone where
  data : Option TimeZone.Data
  deriving Repr, DecidableEq

namespace TimeZone

open Machine

def valid (tz : TimeZone) : Bool := tz.data.isSome

/-- `*data_`, which has to be there. -/
def theData (tz : TimeZone) : Except ZoneFault Data :=
  match tz.data with
  | some data => .ok data
  | none => .error .noData

variable (gmtime_r : Int → Tm) (timegm : Tm → Int)

def toLocalTime (tz : TimeZone) (seconds : Int) : Except ZoneFault Tm := do
  (← tz.theData).toLocalTime gmtime_r seconds

def fromLocalTime (tz : TimeZone) (localTm : Tm) : Except ZoneFault Int := do
  (← tz.theData).fromLocalTime gmtime_r timegm localTm

end TimeZone

end Cobra
