/-
Local time and back (`toLocalTime` and `fromLocalTime` of Cobra.TimeZone).

# Main results

- `toLocalTime_safe`, `fromLocalTime_safe`: with every index of the table
  in range, no call takes an entry or a character that is not there, in any
  order of transitions.
- `localTime_roundtrip_iff`: in a zone, `fromLocalTime` undoes
  `toLocalTime` exactly where no later transition has yet been seen by the
  local clock, or where an hour of daylight saving time comes to its end.

# The clock set back

`fromLocalTime` looks for the last transition that the local clock has
seen. Before an instant `t` all transitions are seen at `t`, so the search
can only go too far: to a transition that is still to come, with the clock
set back past what it shows now (`Repeats`). Its entry has a smaller offset
then, and what is returned is too late by the difference, unless the
correction for daylight saving time takes exactly that off again.
-/
import Cobra.Proofs.TimeZone
import Cobra.Proofs.UtcTime

namespace Cobra.TimeZone

open Machine LowerBound

variable {gmtime_r : Int → Tm} {timegm : Tm → Int}

-- ============================================================ no index fails

theorem Data.InRange.zone_ok {data : Data} (h : data.InRange) {l : Localtime}
    (hl : l ∈ data.localtimes) :
    data.zone l.arrbIdx = .ok (data.abbreviation.drop l.arrbIdx.toNat) := by
  obtain ⟨hpos, hlt⟩ := h.abbreviation l hl
  unfold Data.zone
  rw [require_bind ⟨hpos, by omega⟩]

theorem findLocaltime_safe {data : Data} (h : data.Indexed)
    (sentry : Transition) (comp : Comp) :
    ∃ l ∈ data.localtimes, findLocaltime data sentry comp = .ok l := by
  obtain ⟨o, hmem, heq, -⟩ := findLocaltime_found data sentry comp
  exact ⟨_, h.entry_mem hmem, heq.trans (h.lookup_ok hmem)⟩

theorem toLocalTime_safe {data : Data} (h : data.InRange)
    (gmtime_r : Int → Tm) (seconds : Int) :
    ∃ tm, data.toLocalTime gmtime_r seconds = .ok tm := by
  obtain ⟨l, hl, heq⟩ := findLocaltime_safe h.toIndexed ⟨seconds, 0, 0⟩ ⟨true⟩
  unfold Data.toLocalTime
  rw [heq, ok_bind, h.zone_ok hl, ok_bind]
  exact ⟨_, rfl⟩

theorem fromLocalTime_safe {data : Data} (h : data.InRange)
    (gmtime_r : Int → Tm) (timegm : Tm → Int) (localTm : Tm) :
    ∃ t, data.fromLocalTime gmtime_r timegm localTm = .ok t := by
  obtain ⟨l, hl, heq⟩ :=
    findLocaltime_safe h.toIndexed ⟨0, timegm localTm, 0⟩ ⟨false⟩
  obtain ⟨tryTm, htry⟩ :=
    toLocalTime_safe h gmtime_r (timegm localTm - l.gmtOffset)
  unfold Data.fromLocalTime
  dsimp only
  rw [heq, ok_bind]
  by_cases hdst : localTm.isdst ≠ 0
  · rw [if_pos hdst, htry, ok_bind]
    split
    next => exact ⟨_, rfl⟩
    next => exact ⟨_, rfl⟩
  · rw [if_neg hdst]
    exact ⟨_, rfl⟩

-- ============================================================= in a zone

/-- What `toLocalTime` returns. -/
def Data.localTm (gmtime_r : Int → Tm) (data : Data) (t : Int) : Tm :=
  { gmtime_r (data.wall t) with
    isdst := if (data.atUtc t).isDst then 1 else 0
    gmtoff := (data.atUtc t).gmtOffset
    zone := some (data.abbreviation.drop (data.atUtc t).arrbIdx.toNat) }

theorem scan_mem {data : Data} (h : data.Indexed) (key : Transition → Int)
    (k : Int) : data.scan key k ∈ data.localtimes :=
  h.entry_mem fun _ ht => (lastAtMost_mem ht).1

theorem toLocalTime_eq {data : Data} (h : data.Zone) (t : Int) :
    data.toLocalTime gmtime_r t = .ok (data.localTm gmtime_r t) := by
  have hfind : findLocaltime data ⟨t, 0, 0⟩ ⟨true⟩ = .ok (data.atUtc t) :=
    findLocaltime_scan ⟨true⟩ h.toIndexed h.by_gmttime ⟨t, 0, 0⟩
  have hzone := h.zone_ok (l := data.atUtc t) (scan_mem h.toIndexed _ t)
  unfold Data.toLocalTime
  rw [hfind, ok_bind, hzone]
  rfl

/-- `fromLocalTime`, with the two searches in the table done. -/
theorem fromLocalTime_eq {data : Data} (h : data.Zone) (localTm : Tm)
    {w : Int} (hw : timegm localTm = w) :
    data.fromLocalTime gmtime_r timegm localTm
      = .ok (if localTm.isdst ≠ 0 ∧ SameMinute
            (data.localTm gmtime_r (w - (data.atLocal w).gmtOffset)) localTm
          then w - 3600 - (data.atLocal w).gmtOffset
          else w - (data.atLocal w).gmtOffset) := by
  have hfind : findLocaltime data ⟨0, w, 0⟩ ⟨false⟩ = .ok (data.atLocal w) :=
    findLocaltime_scan ⟨false⟩ h.toIndexed h.by_localtime ⟨0, w, 0⟩
  unfold Data.fromLocalTime
  dsimp only
  rw [hw, hfind, ok_bind, toLocalTime_eq h, ok_bind]
  by_cases hdst : localTm.isdst ≠ 0
  · rw [if_pos hdst]
    by_cases hsame : SameMinute
        (data.localTm gmtime_r (w - (data.atLocal w).gmtOffset)) localTm
    · rw [if_pos hsame, if_pos ⟨hdst, hsame⟩]
    · rw [if_neg hsame, if_neg fun hboth => hsame hboth.2]
  · rw [if_neg hdst, if_neg fun hboth => hdst hboth.1]

-- ==================================================== the clock set back

/-- A transition still to come sets the clock back to what it shows now, or
further. -/
def Data.Repeats (data : Data) (t : Int) : Prop :=
  ∃ tr ∈ data.transitions, t < tr.gmttime ∧ tr.localtime ≤ data.wall t

/-- The local time of a transition in force has come. -/
theorem localtime_le_wall {data : Data} (h : data.Zone) {t : Int}
    {tr : Transition} (htr : tr ∈ data.transitions) (hle : tr.gmttime ≤ t) :
    tr.localtime ≤ data.wall t := by
  obtain ⟨last, hlast⟩ : ∃ last, lastAtMost (·.gmttime) t data.transitions
      = some last := lastAtMost_ne_none htr hle
  obtain ⟨hmem, hlast_le⟩ := lastAtMost_mem hlast
  have hmax := key_le_lastAtMost h.by_gmttime htr hle hlast
  have horder := key_lt_iff h.by_gmttime h.by_localtime hmem htr
  have hlocal := h.localtime_eq last hmem
  have hwall : data.wall t = t + (data.entry last).gmtOffset := by
    unfold Data.wall Data.atUtc Data.scan
    rw [hlast]
  have hnot := mt horder.2 (by omega)
  omega

/-- Without such a transition the local clock finds the entry in force. -/
theorem atLocal_wall {data : Data} (h : data.Zone) {t : Int}
    (hrep : ¬ data.Repeats t) : data.atLocal (data.wall t) = data.atUtc t := by
  have hseen : ∀ tr ∈ data.transitions,
      tr.localtime ≤ data.wall t ↔ tr.gmttime ≤ t := by
    intro tr htr
    constructor
    · intro hle
      by_contra hgt
      exact hrep ⟨tr, htr, by omega, hle⟩
    · exact localtime_le_wall h htr
  exact congrArg data.entry (lastAtMost_congr hseen)

/-- With one the local clock finds an entry with a smaller offset. -/
theorem gmtOffset_atLocal_lt {data : Data} (h : data.Zone) {t : Int}
    (hrep : data.Repeats t) :
    (data.atLocal (data.wall t)).gmtOffset < (data.atUtc t).gmtOffset := by
  obtain ⟨tr, htr, hlater, hseen⟩ := hrep
  obtain ⟨last, hlast⟩ : ∃ last,
      lastAtMost (·.localtime) (data.wall t) data.transitions = some last :=
    lastAtMost_ne_none htr hseen
  obtain ⟨hmem, hlast_le⟩ := lastAtMost_mem hlast
  have hmax := key_le_lastAtMost h.by_localtime htr hseen hlast
  have horder := key_lt_iff h.by_gmttime h.by_localtime hmem htr
  have hlocal := h.localtime_eq last hmem
  have hentry : data.atLocal (data.wall t) = data.entry last := by
    unfold Data.atLocal Data.scan
    rw [hlast]
  have hnot := mt horder.1 (by omega)
  have hwall : data.wall t = t + (data.atUtc t).gmtOffset := rfl
  rw [hentry]
  omega

-- ========================================================== the round trip

/-- What the round trip relies on: `timegm` gives the seconds back that
`gmtime_r` has broken down, whatever the zone's fields say. -/
def InverseAt (gmtime_r : Int → Tm) (timegm : Tm → Int) (s : Int) : Prop :=
  ∀ isdst gmtoff zone, timegm { gmtime_r s with
    isdst := isdst, gmtoff := gmtoff, zone := zone } = s

/-- `fromLocalTime(toLocalTime(t))`. -/
def roundTrip (gmtime_r : Int → Tm) (timegm : Tm → Int) (tz : TimeZone)
    (t : Int) : Except ZoneFault Int := do
  tz.fromLocalTime gmtime_r timegm (← tz.toLocalTime gmtime_r t)

/-- An hour of daylight saving time ends: the clock is set back by an hour,
and an hour later it shows the same hour and minute in standard time. -/
structure Data.HourBack (gmtime_r : Int → Tm) (data : Data) (t : Int) :
    Prop where
  isDst : (data.atUtc t).isDst = true
  offset : (data.atLocal (data.wall t)).gmtOffset
    = (data.atUtc t).gmtOffset - 3600
  isStd : (data.atUtc (t + 3600)).isDst = false
  hour : (gmtime_r (data.wall (t + 3600))).hour = (gmtime_r (data.wall t)).hour
  min : (gmtime_r (data.wall (t + 3600))).min = (gmtime_r (data.wall t)).min

theorem isdst_localTm (gmtime_r : Int → Tm) (data : Data) (t : Int) :
    (data.localTm gmtime_r t).isdst ≠ 0 ↔ (data.atUtc t).isDst = true := by
  unfold Data.localTm
  cases (data.atUtc t).isDst with
  | true => simp
  | false => simp

theorem roundTrip_eq {data : Data} (h : data.Zone) {t : Int}
    (hinv : InverseAt gmtime_r timegm (data.wall t)) :
    roundTrip gmtime_r timegm ⟨some data⟩ t
      = .ok (if (data.atUtc t).isDst = true ∧ SameMinute
            (data.localTm gmtime_r
              (data.wall t - (data.atLocal (data.wall t)).gmtOffset))
            (data.localTm gmtime_r t)
          then data.wall t - 3600 - (data.atLocal (data.wall t)).gmtOffset
          else data.wall t - (data.atLocal (data.wall t)).gmtOffset) := by
  have hto : (⟨some data⟩ : TimeZone).toLocalTime gmtime_r t
      = .ok (data.localTm gmtime_r t) := toLocalTime_eq h t
  unfold roundTrip
  rw [hto, ok_bind]
  simp only [← isdst_localTm gmtime_r]
  exact fromLocalTime_eq h (data.localTm gmtime_r t) (hinv _ _ _)

/-- In a zone `fromLocalTime` undoes `toLocalTime` exactly at the instants
that no later transition sets the clock back past, and at those of the last
hour of daylight saving time that ends with the clock set back by an
hour. -/
theorem localTime_roundtrip_iff {data : Data} (h : data.Zone) {t : Int}
    (hinv : InverseAt gmtime_r timegm (data.wall t)) :
    roundTrip gmtime_r timegm ⟨some data⟩ t = .ok t
      ↔ ¬ data.Repeats t ∨ data.HourBack gmtime_r t := by
  have hwall : data.wall t = t + (data.atUtc t).gmtOffset := rfl
  rw [roundTrip_eq h hinv, Except.ok.injEq]
  by_cases hrep : data.Repeats t
  · have hless := gmtOffset_atLocal_lt h hrep
    constructor
    · intro heq
      right
      split at heq
      next hboth =>
        have hoffset : (data.atLocal (data.wall t)).gmtOffset
            = (data.atUtc t).gmtOffset - 3600 := by omega
        have htry : data.wall t - (data.atLocal (data.wall t)).gmtOffset
            = t + 3600 := by omega
        rw [htry] at hboth
        obtain ⟨hdst, hstd, hhour, hmin⟩ := hboth
        refine ⟨hdst, hoffset, ?_, hhour, hmin⟩
        rw [← Bool.not_eq_true, ← isdst_localTm gmtime_r]
        exact not_not.2 hstd
      next => omega
    · rintro (hno | hback)
      · exact absurd hrep hno
      · have hoffset := hback.offset
        have htry : data.wall t - (data.atLocal (data.wall t)).gmtOffset
            = t + 3600 := by omega
        have hstd : (data.localTm gmtime_r (t + 3600)).isdst = 0 := by
          have hiff := isdst_localTm gmtime_r data (t + 3600)
          rw [hback.isStd] at hiff
          by_contra hne
          exact absurd (hiff.1 hne) (by decide)
        rw [htry, if_pos ⟨hback.isDst, hstd, hback.hour, hback.min⟩]
        omega
  · -- the entry in force is found, and so is the instant
    have hentry := atLocal_wall h hrep
    have htry : data.wall t - (data.atLocal (data.wall t)).gmtOffset = t := by
      rw [hentry]
      omega
    have hskip : ¬ ((data.atUtc t).isDst = true ∧ SameMinute
        (data.localTm gmtime_r t) (data.localTm gmtime_r t)) := by
      rintro ⟨hdst, hstd, -⟩
      exact (isdst_localTm gmtime_r data t).2 hdst hstd
    rw [htry, if_neg hskip]
    exact iff_of_true rfl (.inl hrep)

-- ================================================ a clock set back by less

/-- The C library's `gmtime_r`, where `toUtcTime` has a result. -/
def gmtimeOf (s : Int) : Tm :=
  match toUtcTime s true with
  | .ok utc => utc
  | .error _ => Tm.zero

/-- The C library's `timegm`, where `fromUtcTime` has a result. -/
def timegmOf (utc : Tm) : Int :=
  match fromUtcTime utc with
  | .ok s => s
  | .error _ => 0

theorem inverseAt_of_dated {s : Int} (h : Dated s) :
    InverseAt gmtimeOf timegmOf s := by
  obtain ⟨d, hreck, hday, hok⟩ := toUtcTime_eq h true
  have hfrom := fromUtcTime_utcOf hreck hday h (dayOfYear d)
  intro isdst gmtoff zone
  unfold gmtimeOf
  rw [hok]
  have hfields : fromUtcTime { utcOf (s % 86400).toNat d (dayOfYear d) with
      isdst := isdst, gmtoff := gmtoff, zone := zone } = .ok s := hfrom
  unfold timegmOf
  rw [if_pos rfl, hfields]

/-- No other instant has the same local time and the same flag: each of two
instances of a local time is on its own side of the transition. -/
def Data.Unique (data : Data) (t : Int) : Prop :=
  ∀ u, data.wall u = data.wall t →
    (data.atUtc u).isDst = (data.atUtc t).isDst → u = t

theorem lordHowe_atUtc (u : Int) :
    lordHowe.atUtc u = if 1317483000 ≤ u ∧ u < 1333206000
      then ⟨39600, true, 6⟩ else ⟨37800, false, 0⟩ := by
  unfold Data.atUtc Data.scan lastAtMost lordHowe
  by_cases hstart : 1317483000 ≤ u
  · by_cases hend : 1333206000 ≤ u
    · rw [if_neg (by omega)]
      simp [hstart, hend, Data.entry]
    · rw [if_pos ⟨hstart, by omega⟩]
      simp [hstart, hend, Data.entry]
  · rw [if_neg (by omega)]
    have hend : ¬ 1333206000 ≤ u := by omega
    simp [hstart, hend, Data.entry]

theorem lordHowe_unique : lordHowe.Unique 1333205999 := by
  intro u hwall hdst
  unfold Data.wall at hwall
  rw [lordHowe_atUtc, lordHowe_atUtc] at hwall hdst
  split at hdst
  next hin =>
    rw [if_pos hin, if_pos (by decide)] at hwall
    simp only at hwall
    omega
  next hout =>
    rw [if_pos (by decide)] at hdst
    cases hdst

/-- The last second of that summer: its local time leads half an hour too
far back. -/
theorem localTime_roundtrip_half_hour :
    lordHowe.Zone ∧ lordHowe.Unique 1333205999
      ∧ (∀ s, Dated s → InverseAt gmtimeOf timegmOf s)
      ∧ roundTrip gmtimeOf timegmOf ⟨some lordHowe⟩ 1333205999
        = .ok 1333204199 :=
  ⟨lordHowe_zone, lordHowe_unique, fun _ => inverseAt_of_dated,
    by decide +kernel⟩

/-- The condition at work in the same zone. -/
theorem localTime_roundtrip_iff_lordHowe :
    lordHowe.Zone
      ∧ InverseAt gmtimeOf timegmOf (lordHowe.wall 1333204199)
      ∧ (roundTrip gmtimeOf timegmOf ⟨some lordHowe⟩ 1333204199
            = .ok 1333204199
          ↔ ¬ lordHowe.Repeats 1333204199
            ∨ lordHowe.HourBack gmtimeOf 1333204199) :=
  have hinv := inverseAt_of_dated (s := lordHowe.wall 1333204199)
    ⟨by decide +kernel, by decide +kernel⟩
  ⟨lordHowe_zone, hinv, localTime_roundtrip_iff lordHowe_zone hinv⟩

end Cobra.TimeZone
