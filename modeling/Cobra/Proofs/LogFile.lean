/-
Rolling keeps every line.

# The files

A line is written before `append_unlocked` looks whether to roll, so that
it always goes to the file that is current (`append_effect`). A file is
opened only at a second after that of the one before: a roll in the same
second, or after the clock has been set back, is refused. The seconds are
therefore increasing, and the names, which have the second in them, are
different.

# The days

`count_` counts the lines since the last look at the clock, and never
gets past 1025. With a clock that does not go back, as long as the
current file is of an earlier day, no line of the new day resets it: the
look at the clock would find the new day and roll. So it bounds the lines
of the new day in the old file, up to the one that makes it roll
(`DaysInv`).

# The first file

`lastRoll_` starts at zero, and `rollFile` opens a file only at a later
second. A `LogFile` constructed at a second that is not after the epoch
has no file, and the first line goes through a null pointer.
-/
import Cobra.LogFile

namespace Cobra.LogFile

open Machine Calendar

variable {s s' : LogFile} {a : LogAppend} {f : OpenFile}

-- ============================================================ the names

theorem timeStamp_injective {m n : Nat} (h : timeStamp m = timeStamp n) :
    m = n := by
  have hm := dateOf_valid (m / 86400)
  have hn := dateOf_valid (n / 86400)
  have hm12 := hm.month_le
  have hm31 := hm.day_le
  have hn12 := hn.month_le
  have hn31 := hn.day_le
  unfold timeStamp at h
  simp only [List.cons.injEq, true_and] at h
  -- behind the year both texts have the same length
  obtain ⟨hyear, h⟩ := List.append_inj' h rfl
  obtain ⟨h, htime⟩ := List.append_inj h rfl
  obtain ⟨hmonth, hday⟩ := List.append_inj h rfl
  simp only [List.cons.injEq, true_and] at htime
  obtain ⟨htime, -⟩ := List.append_inj htime rfl
  obtain ⟨htime, hsecond⟩ := List.append_inj htime rfl
  obtain ⟨hhour, hminute⟩ := List.append_inj htime rfl
  have hyear := formatU_injective hyear
  have hmonth := twoDigits_injective (by omega) (by omega) hmonth
  have hday := twoDigits_injective (by omega) (by omega) hday
  have hhour := twoDigits_injective (by omega) (by omega) hhour
  have hminute := twoDigits_injective (by omega) (by omega) hminute
  have hsecond := twoDigits_injective (by omega) (by omega) hsecond
  have hdate : dateOf (m / 86400) = dateOf (n / 86400) := by
    cases hd : dateOf (m / 86400)
    cases he : dateOf (n / 86400)
    rw [hd, he] at hyear hmonth hday
    simp only at hyear hmonth hday
    rw [hyear, hmonth, hday]
  have hdays := dateOf_injective hdate
  omega

theorem getLogFileName_injective {name : LogName} {m n : Int} (hm : 0 < m)
    (hn : 0 < n) (h : getLogFileName name m = getLogFileName name n) : m = n := by
  unfold getLogFileName at h
  have hstamp := List.append_cancel_right (List.append_cancel_left h)
  have hsame := timeStamp_injective hstamp
  omega

-- ===================================================== what append does

/-- What is left as it was when there is no new file. -/
structure Stays (s s' : LogFile) (f' : OpenFile) : Prop where
  file : s'.file = some f'
  closed : s'.closed = s.closed
  lastRoll : s'.lastRoll = s.lastRoll
  startOfPeriod : s'.startOfPeriod = s.startOfPeriod

/-- What happens behind the line: a new file; or none, because the roll
was refused, the period is still the same, or nobody looked. -/
inductive AppendEffect (s s' : LogFile) (f' : OpenFile) (a : LogAppend) : Prop
  | rolls (hnow : s.lastRoll < a.rollNow)
      (hfile : s'.file
        = some ⟨getLogFileName s.name a.rollNow, a.rollNow, [], 0⟩)
      (hclosed : s'.closed = s.closed ++ [f'])
      (hlast : s'.lastRoll = a.rollNow)
      (hperiod : s'.startOfPeriod = periodOf a.rollNow)
      (hcount : s'.count ≤ s.count)
  | refused (hstays : Stays s s' f') (hnow : a.rollNow ≤ s.lastRoll)
      (hcount : s'.count = s.count)
  | looked (hstays : Stays s s' f') (hsize : f'.writtenBytes ≤ s.rollSize)
      (hperiod : periodOf a.now = s.startOfPeriod ∨ a.rollNow ≤ s.lastRoll)
      (hcount : s'.count = 0)
  | counted (hstays : Stays s s' f') (hsize : f'.writtenBytes ≤ s.rollSize)
      (hless : s.count ≤ kCheckTimeRoll) (hcount : s'.count = s.count + 1)

/-- `rollFile`, with the line already in the current file. -/
theorem rollFile_effect {f' : OpenFile} {count : Nat} {records : List LineRecord}
    (hcount : count ≤ s.count)
    (hrefused : ∀ s', Stays s s' f' → a.rollNow ≤ s.lastRoll →
      s'.count = count → AppendEffect s s' f' a) :
    AppendEffect s (rollFile { s with
      file := some f', records := records, count := count } a.rollNow) f' a := by
  unfold rollFile
  by_cases hnow : s.lastRoll < a.rollNow
  · rw [if_pos hnow]
    exact .rolls hnow rfl rfl rfl rfl hcount
  · rw [if_neg hnow]
    exact hrefused _ ⟨rfl, rfl, rfl, rfl⟩ (Int.not_lt.mp hnow) rfl

theorem rollFile_frame (s : LogFile) (now : Int) :
    (s.rollFile now).name = s.name ∧ (s.rollFile now).rollSize = s.rollSize
      ∧ (s.rollFile now).records = s.records := by
  unfold rollFile
  split
  next => exact ⟨rfl, rfl, rfl⟩
  next => exact ⟨rfl, rfl, rfl⟩

theorem append_effect (hf : s.file = some f) (hs : s.append a = .ok s') :
    s'.name = s.name ∧ s'.rollSize = s.rollSize
      ∧ s'.records = s.records ++ [⟨a.called, f.openedAt⟩]
      ∧ AppendEffect s s' (f.append a.logline a.writes) a := by
  unfold append at hs
  rw [hf] at hs
  cases hs
  unfold afterWrite
  split
  next =>
    obtain ⟨hname, hsize, hrecords⟩ := rollFile_frame { s with
      file := some (f.append a.logline a.writes)
      records := s.records ++ [⟨a.called, f.openedAt⟩] } a.rollNow
    refine ⟨hname, hsize, hrecords, ?_⟩
    exact rollFile_effect (Nat.le_refl _) fun _ hstays hnow hcount =>
      .refused hstays hnow hcount
  next hsmall =>
    have hsmall := Nat.le_of_not_lt hsmall
    split
    next hlook =>
      simp only
      split
      next =>
        obtain ⟨hname, hsize, hrecords⟩ := rollFile_frame { s with
          file := some (f.append a.logline a.writes)
          records := s.records ++ [⟨a.called, f.openedAt⟩]
          count := 0 } a.rollNow
        refine ⟨hname, hsize, hrecords, ?_⟩
        exact rollFile_effect (Nat.zero_le _) fun _ hstays hnow hcount =>
          .looked hstays hsmall (.inr hnow) hcount
      next hsame =>
        have hperiod := Decidable.of_not_not hsame
        split
        next =>
          exact ⟨rfl, rfl, rfl,
            .looked ⟨rfl, rfl, rfl, rfl⟩ hsmall (.inl hperiod) rfl⟩
        next =>
          exact ⟨rfl, rfl, rfl,
            .looked ⟨rfl, rfl, rfl, rfl⟩ hsmall (.inl hperiod) rfl⟩
    next hless =>
      exact ⟨rfl, rfl, rfl,
        .counted ⟨rfl, rfl, rfl, rfl⟩ hsmall (Nat.le_of_not_lt hless) rfl⟩

-- ============================================================ the files

/-- The files have the lines, and their seconds increase. -/
structure FilesInv (bytes : List UInt8) (s : LogFile) : Prop where
  current : ∃ f, s.file = some f ∧ f.openedAt = s.lastRoll
  content : s.files.flatMap (·.content) = bytes
  increasing : (s.files.map (·.openedAt)).Pairwise (· < ·)
  named : ∀ f ∈ s.files,
    0 < f.openedAt ∧ f.name = getLogFileName s.name f.openedAt
  latest : ∀ f ∈ s.files, f.openedAt ≤ s.lastRoll
  period : s.startOfPeriod = periodOf s.lastRoll

variable {bytes : List UInt8}

theorem files_of (hf : s.file = some f) : s.files = s.closed ++ [f] := by
  unfold files
  rw [hf]
  rfl

/-- The line is at the end of the current file. -/
theorem FilesInv.write (h : FilesInv bytes s) (hf : s.file = some f)
    (hfull : FullWrite a) :
    (s.closed ++ [f.append a.logline a.writes]).flatMap (·.content)
      = bytes ++ a.logline := by
  have hcontent := h.content
  rw [files_of hf, List.flatMap_append, List.flatMap_singleton] at hcontent
  unfold FullWrite at hfull
  rw [List.flatMap_append, List.flatMap_singleton, OpenFile.append, hfull,
    List.take_length, ← hcontent, List.append_assoc]

theorem FilesInv.stays (h : FilesInv bytes s) (hf : s.file = some f)
    (hfull : FullWrite a) (hname : s'.name = s.name)
    (hstays : Stays s s' (f.append a.logline a.writes)) :
    FilesInv (bytes ++ a.logline) s' := by
  obtain ⟨g, hg, hopened⟩ := h.current
  obtain rfl : f = g := Option.some.inj (hf.symm.trans hg)
  have hfiles : s'.files = s.closed ++ [f.append a.logline a.writes] := by
    rw [files_of hstays.file, hstays.closed]
  have hseconds : s'.files.map (·.openedAt) = s.files.map (·.openedAt) := by
    rw [hfiles, files_of hf, List.map_append, List.map_append]
    rfl
  have hmem : ∀ g ∈ s'.files, ∃ g' ∈ s.files,
      g.openedAt = g'.openedAt ∧ g.name = g'.name := by
    intro g hg
    rw [hfiles] at hg
    rw [files_of hf]
    obtain hg | hg := List.mem_append.mp hg
    · exact ⟨g, List.mem_append_left _ hg, rfl, rfl⟩
    · refine ⟨f, List.mem_append_right _ (List.mem_singleton.mpr rfl), ?_⟩
      rw [List.mem_singleton.mp hg]
      exact ⟨rfl, rfl⟩
  refine ⟨⟨_, hstays.file, ?_⟩, ?_, ?_, ?_, ?_, ?_⟩
  · rw [hstays.lastRoll]
    exact hopened
  · rw [hfiles]
    exact h.write hf hfull
  · rw [hseconds]
    exact h.increasing
  · intro g hg
    obtain ⟨g', hg', hsecond, hsame⟩ := hmem g hg
    rw [hsecond, hsame, hname]
    exact h.named g' hg'
  · intro g hg
    obtain ⟨g', hg', hsecond, -⟩ := hmem g hg
    rw [hsecond, hstays.lastRoll]
    exact h.latest g' hg'
  · rw [hstays.startOfPeriod, hstays.lastRoll]
    exact h.period

/-- A new file at a later second. -/
theorem FilesInv.opens {now : Int} (h : FilesInv bytes s)
    (hnow : s.lastRoll < now) (hname : s'.name = s.name)
    (hfile : s'.file = some ⟨getLogFileName s.name now, now, [], 0⟩)
    (hclosed : s'.closed = s.files) (hlast : s'.lastRoll = now)
    (hperiod : s'.startOfPeriod = periodOf now) : FilesInv bytes s' := by
  obtain ⟨f, hf, hopened⟩ := h.current
  have hfiles := files_of hfile
  rw [hclosed] at hfiles
  have hpos : 0 < now := by
    have hmem : f ∈ s.files := by
      rw [files_of hf]
      exact List.mem_append_right _ (List.mem_singleton.mpr rfl)
    have hfirst := (h.named f hmem).1
    omega
  refine ⟨⟨_, hfile, hlast.symm⟩, ?_, ?_, ?_, ?_, ?_⟩
  · rw [hfiles, List.flatMap_append, List.flatMap_singleton, List.append_nil]
    exact h.content
  · rw [hfiles, List.map_append, List.pairwise_append]
    refine ⟨h.increasing, List.pairwise_singleton .., ?_⟩
    intro t ht u hu
    obtain ⟨g, hg, rfl⟩ := List.mem_map.mp ht
    rw [List.mem_singleton.mp hu]
    exact Int.lt_of_le_of_lt (h.latest g hg) hnow
  · intro g hg
    rw [hfiles] at hg
    rw [hname]
    obtain hg | hg := List.mem_append.mp hg
    · exact h.named g hg
    · rw [List.mem_singleton.mp hg]
      exact ⟨hpos, rfl⟩
  · intro g hg
    rw [hfiles] at hg
    rw [hlast]
    obtain hg | hg := List.mem_append.mp hg
    · exact Int.le_of_lt (Int.lt_of_le_of_lt (h.latest g hg) hnow)
    · rw [List.mem_singleton.mp hg]
  · rw [hperiod, hlast]

theorem append_files (h : FilesInv bytes s) (hfull : FullWrite a) :
    Holds (s.append a) (FilesInv (bytes ++ a.logline)) := by
  obtain ⟨f, hf, -⟩ := h.current
  have hok : ∃ s', s.append a = .ok s' := by
    unfold append
    rw [hf]
    exact ⟨_, rfl⟩
  obtain ⟨s', hs⟩ := hok
  obtain ⟨hname, -, -, heffect⟩ := append_effect hf hs
  refine ⟨s', hs, ?_⟩
  cases heffect with
  | rolls hnow hfile hclosed hlast hperiod _ =>
      have hwritten : FilesInv (bytes ++ a.logline)
          { s with file := some (f.append a.logline a.writes) } :=
        h.stays hf hfull rfl ⟨rfl, rfl, rfl, rfl⟩
      exact hwritten.opens hnow hname hfile hclosed hlast hperiod
  | refused hstays _ _ => exact h.stays hf hfull hname hstays
  | looked hstays _ _ _ => exact h.stays hf hfull hname hstays
  | counted hstays _ _ _ => exact h.stays hf hfull hname hstays

theorem run_files {as : List LogAppend} : ∀ {bytes : List UInt8} {s : LogFile},
    FilesInv bytes s → (∀ a ∈ as, FullWrite a) →
      Holds (run append s as) (FilesInv (bytes ++ as.flatMap (·.logline))) := by
  induction as with
  | nil =>
      intro bytes s h _
      rw [List.flatMap_nil, List.append_nil]
      exact holds_ok h
  | cons a as ih =>
      intro bytes s h hfull
      obtain ⟨s', hs', h'⟩ := append_files h (hfull a List.mem_cons_self)
      rw [run_cons_ok as hs', List.flatMap_cons, ← List.append_assoc]
      exact ih h' fun b hb => hfull b (List.mem_cons_of_mem a hb)

/-- No name is used twice. -/
theorem FilesInv.names_nodup (h : FilesInv bytes s) :
    (s.files.map (·.name)).Nodup := by
  have hincreasing := h.increasing
  rw [List.pairwise_map] at hincreasing
  unfold List.Nodup
  rw [List.pairwise_map]
  refine hincreasing.imp_of_mem fun {f g} hf hg hlt heq => ?_
  obtain ⟨hfpos, hfname⟩ := h.named f hf
  obtain ⟨hgpos, hgname⟩ := h.named g hg
  rw [hfname, hgname] at heq
  have hsame := getLogFileName_injective hfpos hgpos heq
  omega

/-- At a second after its file was opened, an `append` leaves a file of
at most the roll size. -/
theorem append_bounded {f' : OpenFile} (hf : s.file = some f)
    (hopened : f.openedAt = s.lastRoll) (hs : s.append a = .ok s')
    (hlater : f.openedAt < a.rollNow) (hf' : s'.file = some f') :
    f'.writtenBytes ≤ s.rollSize := by
  have hstay : Stays s s' (f.append a.logline a.writes) →
      (f.append a.logline a.writes).writtenBytes ≤ s.rollSize →
        f'.writtenBytes ≤ s.rollSize := by
    intro hstays hsize
    obtain rfl := Option.some.inj (hf'.symm.trans hstays.file)
    exact hsize
  obtain ⟨-, -, -, heffect⟩ := append_effect hf hs
  cases heffect with
  | rolls hnow hfile hclosed hlast hperiod _ =>
      obtain rfl := Option.some.inj (hf'.symm.trans hfile)
      exact Nat.zero_le _
  | refused _ hnow _ =>
      rw [hopened] at hlater
      omega
  | looked hstays hsize _ _ => exact hstay hstays hsize
  | counted hstays hsize _ _ => exact hstay hstays hsize

-- ============================================================= the days

theorem dayOf_mono {t u : Int} (h : t ≤ u) : dayOf t ≤ dayOf u :=
  Int.ediv_le_ediv (by decide) h

/-- After the epoch, the period is the day. -/
theorem dayOf_eq_of_period {t u : Int} (ht : 0 < t) (hu : 0 < u)
    (h : periodOf t = periodOf u) : dayOf t = dayOf u := by
  unfold periodOf at h
  rw [Int.tdiv_eq_ediv_of_nonneg (Int.le_of_lt ht),
    Int.tdiv_eq_ediv_of_nonneg (Int.le_of_lt hu)] at h
  exact Int.eq_of_mul_eq_mul_right (by decide) h

/-- How many lines of the day are in a file of an earlier one. -/
def late (s : LogFile) (day : Int) : Nat := (s.lateLines day).length

/-- The clock is at `t`. While the current file is of an earlier day,
`count_` bounds the lines of the day that are in it. -/
structure DaysInv (t : Int) (s : LogFile) : Prop where
  positive : 0 < s.lastRoll
  reached : s.lastRoll ≤ t
  count_le : s.count ≤ kCheckTimeRoll + 1
  late_le : ∀ day, s.late day ≤ kCheckTimeRoll + 2
  earlier : ∀ day, dayOf s.lastRoll < day → s.late day ≤ s.count
  ahead : ∀ day, dayOf t < day → s.late day = 0

/-- One line more. -/
theorem late_append {r : LineRecord} (h : s'.records = s.records ++ [r])
    (day : Int) :
    (dayOf r.called = day ∧ dayOf r.openedAt < day
        ∧ s'.late day = s.late day + 1)
      ∨ ((dayOf r.called ≠ day ∨ day ≤ dayOf r.openedAt)
        ∧ s'.late day = s.late day) := by
  unfold late lateLines
  rw [h, List.filter_append, List.length_append]
  by_cases hlate : dayOf r.called = day ∧ dayOf r.openedAt < day
  · left
    refine ⟨hlate.1, hlate.2, ?_⟩
    simp only [List.filter_cons, hlate.1, hlate.2, decide_true, Bool.and_self,
      if_true, List.filter_nil, List.length_singleton]
  · right
    refine ⟨by omega, ?_⟩
    have hno : (decide (dayOf r.called = day)
        && decide (dayOf r.openedAt < day)) = false := by
      rw [← Bool.decide_and]
      exact decide_eq_false hlate
    simp only [List.filter_cons, hno, Bool.false_eq_true, if_false,
      List.filter_nil, List.length_nil, Nat.add_zero]

/-- One line more is within the bound, and of no day that the clock has
not reached. -/
theorem DaysInv.late_line {t : Int} {r : LineRecord} (h : DaysInv t s)
    (hopened : r.openedAt = s.lastRoll) (hcalled : t ≤ r.called)
    (hrecords : s'.records = s.records ++ [r]) :
    (∀ day, s'.late day ≤ kCheckTimeRoll + 2)
      ∧ ∀ day, dayOf r.called < day → s'.late day = 0 := by
  have hcount := h.count_le
  have hday := dayOf_mono hcalled
  have hline := late_append hrecords
  rw [hopened] at hline
  constructor
  · intro day
    have hle := h.late_le day
    have hearlier := h.earlier day
    obtain ⟨_, hday, heq⟩ | ⟨-, heq⟩ := hline day
    · have := hearlier hday
      omega
    · omega
  · intro day hlater
    have hzero := h.ahead day (by omega)
    obtain ⟨hsame, -, -⟩ | ⟨-, heq⟩ := hline day
    · omega
    · omega

/-- While the current file is of no earlier day than the last line, no
line is late for a day to come. -/
theorem daysInv_of_caughtUp {t called : Int} (hpos : 0 < s.lastRoll)
    (hreached : s.lastRoll ≤ t) (hcount : s.count ≤ kCheckTimeRoll + 1)
    (hlate : ∀ day, s.late day ≤ kCheckTimeRoll + 2)
    (hahead : ∀ day, dayOf called < day → s.late day = 0)
    (hcalled : called ≤ t) (hcaught : dayOf called ≤ dayOf s.lastRoll) :
    DaysInv t s := by
  have hday := dayOf_mono hcalled
  refine ⟨hpos, hreached, hcount, hlate, fun day hlater => ?_,
    fun day hlater => hahead day (by omega)⟩
  rw [hahead day (by omega)]
  exact Nat.zero_le _

theorem append_days {t : Int} (h : DaysInv t s) (hf : s.file = some f)
    (hopened : f.openedAt = s.lastRoll)
    (hperiod : s.startOfPeriod = periodOf s.lastRoll) (hcalled : t ≤ a.called)
    (hnow : a.called ≤ a.now) (hroll : a.now ≤ a.rollNow)
    (hs : s.append a = .ok s') : DaysInv a.rollNow s' := by
  obtain ⟨-, -, hrecords, heffect⟩ := append_effect hf hs
  obtain ⟨hlate, hahead⟩ := h.late_line hopened hcalled hrecords
  simp only at hahead
  have hpos := h.positive
  have hreached := h.reached
  have hcount := h.count_le
  have hd0 := dayOf_mono hreached
  have hd1 := dayOf_mono hcalled
  have hd2 := dayOf_mono hnow
  have hd3 := dayOf_mono hroll
  cases heffect with
  | rolls hlater _ _ hlast _ hless =>
      -- the new file is of no earlier day than the line
      rw [← hlast] at hd3
      exact daysInv_of_caughtUp (by omega) (by omega) (by omega) hlate hahead
        (by omega) (by omega)
  | refused hstays hrefused hsame =>
      -- the clock has not moved since the file was opened
      have hle := dayOf_mono hrefused
      have hlast := hstays.lastRoll
      rw [← hlast] at hle
      exact daysInv_of_caughtUp (by omega) (by omega) (by omega) hlate hahead
        (by omega) (by omega)
  | looked hstays _ hlooked hzero =>
      -- the look has found the day of the current file
      have hlast := hstays.lastRoll
      have hsame : dayOf a.now = dayOf s.lastRoll := by
        obtain hsame | hrefused := hlooked
        · rw [hperiod] at hsame
          exact dayOf_eq_of_period (by omega) hpos hsame
        · have hle := dayOf_mono hrefused
          omega
      rw [← hlast] at hsame
      exact daysInv_of_caughtUp (by omega) (by omega) (by omega) hlate hahead
        (by omega) (by omega)
  | counted hstays _ hless hsame =>
      have hlast := hstays.lastRoll
      refine ⟨by omega, by omega, by omega, hlate, fun day hday => ?_,
        fun day hday => hahead day (by omega)⟩
      rw [hlast] at hday
      have hle := h.earlier day hday
      obtain ⟨-, -, heq⟩ | ⟨-, heq⟩ := late_append hrecords day
      · omega
      · omega

theorem run_days {as : List LogAppend} : ∀ {t : Int} {s s' : LogFile}
    {bytes : List UInt8}, DaysInv t s → FilesInv bytes s → Clocked t as →
      (∀ a ∈ as, FullWrite a) → run append s as = .ok s' →
        ∃ t', DaysInv t' s' := by
  induction as with
  | nil =>
      intro t s s' bytes h _ _ _ hrun
      cases hrun
      exact ⟨t, h⟩
  | cons a as ih =>
      intro t s s' bytes h hfiles hclock hfull hrun
      obtain ⟨s₁, hs₁, hrest⟩ := run_cons_inv hrun
      obtain ⟨f, hf, hopened⟩ := hfiles.current
      obtain ⟨hcalled, hnow, hroll, hclock'⟩ := hclock
      have h₁ := append_days h hf hopened hfiles.period hcalled hnow hroll hs₁
      have hfiles₁ := (append_files hfiles (hfull a List.mem_cons_self)).of_ok hs₁
      exact ih h₁ hfiles₁ hclock'
        (fun b hb => hfull b (List.mem_cons_of_mem a hb)) hrest

-- ======================================================= the first file

variable {name : LogName} {rollSize : Nat} {flushInterval now : Int}

/-- Constructed after the epoch, there is a file, and nothing in it. -/
theorem create_inv (h : create name rollSize flushInterval now = .ok s)
    (hnow : 0 < now) : FilesInv [] s ∧ DaysInv now s ∧ s.rollSize = rollSize := by
  obtain ⟨_, -, h⟩ := bind_ok_inv h
  cases h
  unfold rollFile
  rw [if_pos hnow]
  refine ⟨⟨⟨_, rfl, rfl⟩, rfl, List.pairwise_singleton .., ?_, ?_, rfl⟩,
    ⟨hnow, Int.le_refl _, Nat.zero_le _, fun _ => Nat.zero_le _,
      fun _ _ => Nat.le_refl _, fun _ _ => rfl⟩, rfl⟩
  · intro f hf
    rw [List.mem_singleton.mp hf]
    exact ⟨hnow, rfl⟩
  · intro f hf
    rw [List.mem_singleton.mp hf]

/-- Constructed at or before the epoch, there is no file. -/
theorem create_null (h : create name rollSize flushInterval now = .ok s)
    (hnow : ¬ 0 < now) : s.file = none ∧ s.closed = [] ∧ s.records = [] := by
  obtain ⟨_, -, h⟩ := bind_ok_inv h
  cases h
  unfold rollFile
  rw [if_neg hnow]
  exact ⟨rfl, rfl, rfl⟩

theorem append_rollSize (hs : s.append a = .ok s') :
    s'.rollSize = s.rollSize := by
  cases hf : s.file with
  | none =>
      unfold append at hs
      rw [hf] at hs
      cases hs
  | some f => exact (append_effect hf hs).2.1

theorem keepsLines_of_positive {s₀ : LogFile} {as : List LogAppend}
    (hnew : create name rollSize flushInterval now = .ok s₀)
    (hnow : 0 < now) (hfull : ∀ a ∈ as, FullWrite a) :
    ∃ s, KeepsLines s₀ now as s := by
  obtain ⟨hfiles, hdays, -⟩ := create_inv hnew hnow
  obtain ⟨s, hrun, h⟩ := run_files hfiles hfull
  refine ⟨s, hrun, h.content, h.increasing, h.names_nodup, ?_, ?_⟩
  · intro pre a post t t' f f' has hpre happend hf hlater hf'
    have hmem : ∀ b ∈ pre, FullWrite b := by
      intro b hb
      apply hfull
      rw [has]
      exact List.mem_append_left _ hb
    have ht := (run_files hfiles hmem).of_ok hpre
    obtain ⟨g, hg, hopened⟩ := ht.current
    obtain rfl := Option.some.inj (hf.symm.trans hg)
    have hsize : t.rollSize = s₀.rollSize :=
      run_inv_all (I := fun s => s.rollSize = s₀.rollSize)
        (fun _ _ _ h hs => (append_rollSize hs).trans h) rfl hpre
    rw [← hsize]
    exact append_bounded hf hopened happend hlater hf'
  · intro hclock day
    obtain ⟨t, ht⟩ := run_days hdays hfiles hclock hfull hrun
    exact ht.late_le day

theorem keepsLines_of_nil {s₀ : LogFile}
    (hnew : create name rollSize flushInterval now = .ok s₀)
    (hnow : ¬ 0 < now) : KeepsLines s₀ now [] s₀ := by
  obtain ⟨hfile, hclosed, hrecords⟩ := create_null hnew hnow
  have hnone : s₀.files = [] := by
    unfold files
    rw [hclosed, hfile]
    rfl
  refine ⟨rfl, ?_, ?_, ?_, ?_, ?_⟩
  · rw [hnone]
    rfl
  · rw [hnone]
    exact List.Pairwise.nil
  · rw [hnone]
    exact List.Pairwise.nil
  · intro pre a post t t' f f' has
    exact absurd has.symm
      (List.append_ne_nil_of_right_ne_nil _ (List.cons_ne_nil a post))
  · intro _ day
    unfold lateLines
    rw [hrecords]
    exact Nat.zero_le _

/-- Rolling keeps its promises for every sequence of lines, of clock
readings and of complete writes, exactly if the `LogFile` was constructed
after the epoch, or no line is ever appended. -/
theorem keepsLines_iff {s₀ : LogFile} (as : List LogAppend)
    (hnew : create name rollSize flushInterval now = .ok s₀)
    (hfull : ∀ a ∈ as, FullWrite a) :
    (∃ s, KeepsLines s₀ now as s) ↔ 0 < now ∨ as = [] := by
  constructor
  · rintro ⟨s, h⟩
    by_contra hno
    obtain ⟨hnow, has⟩ := not_or.mp hno
    obtain ⟨a, as, rfl⟩ := List.exists_cons_of_ne_nil has
    obtain ⟨s₁, hs₁, -⟩ := run_cons_inv h.reached
    unfold append at hs₁
    rw [(create_null hnew hnow).1] at hs₁
    cases hs₁
  · intro hor
    by_cases hnow : 0 < now
    · exact keepsLines_of_positive hnew hnow hfull
    · obtain rfl := hor.resolve_left hnow
      exact ⟨s₀, keepsLines_of_nil hnew hnow⟩

/-- A file of at most two bytes, opened at second 100; the second line
makes it too large, at second 101. -/
theorem keepsLines_two_files :
    ∃ s₀ s, create ⟨['a'], ['h'], 7⟩ 2 3 100 = .ok s₀
      ∧ KeepsLines s₀ 100
        [⟨[1, 2], [2], 100, 100, 100⟩, ⟨[3], [0, 1], 101, 101, 101⟩,
          ⟨[4], [1], 101, 101, 101⟩] s := by
  obtain ⟨s₀, hnew⟩ : ∃ s₀, create ⟨['a'], ['h'], 7⟩ 2 3 100 = .ok s₀ :=
    ⟨_, rfl⟩
  obtain ⟨s, hs⟩ := (keepsLines_iff
    [⟨[1, 2], [2], 100, 100, 100⟩, ⟨[3], [0, 1], 101, 101, 101⟩,
      ⟨[4], [1], 101, 101, 101⟩] hnew (by decide)).mpr (.inl (by decide))
  exact ⟨s₀, s, hnew, hs⟩

/-- Constructed at second zero there is no file, and the first line goes
through a null pointer. -/
theorem epoch_has_no_file :
    ∃ s₀, create ⟨['a'], ['h'], 7⟩ 2 3 0 = .ok s₀
      ∧ run append s₀ [⟨[1], [1], 1, 1, 1⟩] = .error .nullFile :=
  ⟨_, rfl, rfl⟩

end Cobra.LogFile
