/-
Times as text: up to the year 9999 the order of the texts is that of the
times, so that records sort by their heads and log files by their names.

# Fields

A text of a second is `stampText` of Cobra.Lib.CalendarText, whose fields
have one width each. The year is written with as many digits as it takes,
and these are four.

# The files

`LogFile` opens its files at later and later seconds. Their names differ
in the second only, so that they are sorted as the files are, and the
files read in the order of their names are what was appended.
-/
import Cobra.Lib.CalendarText
import Cobra.LogTime
import Cobra.Proofs.LogFile

namespace Cobra

open Machine Calendar

-- ============================================================ the texts

/-- A year of four digits. -/
theorem formatU_year {year : Nat} (hlow : 1000 ≤ year) (hhigh : year ≤ 9999) :
    formatU year = twoDigits (year / 100) ++ twoDigits (year % 100) := by
  unfold formatU twoDigits
  rw [Nat.toDigits_of_base_le (by decide) (by omega),
    Nat.toDigits_of_base_le (by decide) (by omega),
    Nat.toDigits_of_base_le (by decide) (by omega),
    Nat.toDigits_of_lt_base (by omega)]
  have h1 : year / 10 / 10 / 10 = year / 100 / 10 := by omega
  have h2 : year / 10 / 10 % 10 = year / 100 % 10 := by omega
  have h3 : year / 10 % 10 = year % 100 / 10 := by omega
  have h4 : year % 10 = year % 100 % 10 := by omega
  rw [h1, h2, h3, h4]
  rfl

theorem length_formatU_year {year : Nat} (h : 1970 ≤ year) :
    (formatU year).length = 4 ↔ year ≤ 9999 := by
  have h4 : (formatU year).length ≤ 4 ↔ year < 10 ^ 4 :=
    Nat.length_toDigits_le_iff (by decide) (by decide)
  have h3 : (formatU year).length ≤ 3 ↔ year < 10 ^ 3 :=
    Nat.length_toDigits_le_iff (by decide) (by decide)
  omega

theorem secondText_eq {n : Nat} (h : n < secondsToYear10000) :
    secondText n = stampText [' '] [':'] n := by
  obtain ⟨hlow, hhigh⟩ := dateOf_year_bounds (n / 86400)
  have hyear := formatU_year (by omega) (hhigh.2 (by
    unfold secondsToYear10000 at h
    omega))
  simp only [secondText, stampText, hyear, List.append_assoc, List.cons_append,
    List.nil_append]

theorem timeStamp_eq {n : Nat} (h : n < secondsToYear10000) :
    timeStamp n = ['.'] ++ (stampText ['-'] [] n ++ ['.']) := by
  obtain ⟨hlow, hhigh⟩ := dateOf_year_bounds (n / 86400)
  have hyear := formatU_year (by omega) (hhigh.2 (by
    unfold secondsToYear10000 at h
    omega))
  simp only [timeStamp, stampText, hyear, List.append_assoc, List.cons_append,
    List.nil_append]

theorem sixDigits_fixed : FixedWidth 6 1000000 sixDigits := by
  have h := (twoDigits_fixed.pair twoDigits_fixed (by decide)).pair
    twoDigits_fixed (by decide)
  have heq : ∀ n < 1000000, sixDigits n = twoDigits (n / 100 / 100)
      ++ twoDigits (n / 100 % 100) ++ twoDigits (n % 100) := by
    intro n hn
    have h1 : n / 10000 = n / 100 / 100 := by omega
    have h2 : n % 10000 / 100 = n / 100 % 100 := by omega
    rw [sixDigits, h1, h2, List.append_assoc]
  refine ⟨fun n _ => rfl, fun m n hlt hn => ?_⟩
  rw [heq m (by omega), heq n hn]
  exact h.mono m n hlt hn

theorem toFormattedString_fixed :
    FixedWidth 24 microsToYear10000 toFormattedString := by
  have h := (stampText_fixed [' '] [':']).pair (sixDigits_fixed.prefixed ['.'])
    (by decide)
  have heq : ∀ n < microsToYear10000, toFormattedString n
      = stampText [' '] [':'] (n / microsPerSecond)
        ++ (['.'] ++ sixDigits (n % microsPerSecond)) := by
    intro n hn
    have hsecond : n / microsPerSecond < secondsToYear10000 := by
      unfold microsToYear10000 at hn
      exact Nat.div_lt_of_lt_mul (Nat.mul_comm .. ▸ hn)
    have hwidth := h.width n hn
    unfold toFormattedString snprintf
    rw [secondText_eq hsecond]
    exact List.take_of_length_le (by
      refine (Nat.le_of_eq hwidth).trans ?_
      decide)
  refine ⟨fun n hn => ?_, fun m n hlt hn => ?_⟩
  · rw [heq n hn]
    exact h.width n hn
  · rw [heq m (Nat.lt_trans hlt hn), heq n hn]
    exact h.mono m n hlt hn

/-- Up to the year 9999 timestamps sort as text. -/
theorem toFormattedString_lt_iff {m n : Nat} (hm : m < microsToYear10000)
    (hn : n < microsToYear10000) :
    toFormattedString m < toFormattedString n ↔ m < n :=
  toFormattedString_fixed.lt_iff hm hn

-- ============================================================ the files

namespace LogFile

variable {s s' : LogFile} {a : LogAppend} {bytes : List UInt8}

theorem timeStamp_fixed : FixedWidth 17 secondsToYear10000 timeStamp := by
  have h := ((stampText_fixed ['-'] []).suffixed ['.']).prefixed ['.']
  refine ⟨fun n hn => ?_, fun m n hlt hn => ?_⟩
  · rw [timeStamp_eq hn]
    exact h.width n hn
  · rw [timeStamp_eq (Nat.lt_trans hlt hn), timeStamp_eq hn]
    exact h.mono m n hlt hn

/-- The names of one logger are in the order of their seconds. -/
theorem getLogFileName_lt {name : LogName} {t u : Int} (ht : 0 < t)
    (hlt : t < u) (hu : u < secondsToYear10000) :
    getLogFileName name t < getLogFileName name u := by
  have h := (timeStamp_fixed.suffixed (name.hostname
    ++ snprintf 32 ('.' :: formatD name.pid) ++ ['.', 'l', 'o', 'g'])).prefixed
    name.basename
  have hmono := h.mono t.toNat u.toNat (by omega) (by omega)
  simp only [List.append_assoc] at hmono
  unfold getLogFileName
  simp only [List.append_assoc]
  exact hmono

/-- The last roll was at a second of `append`, or it is the one before. -/
theorem append_lastRoll {limit : Int} (h : FilesInv bytes s)
    (hs : s.append a = .ok s') (hlast : s.lastRoll < limit)
    (hroll : a.rollNow < limit) : s'.lastRoll < limit := by
  obtain ⟨f, hf, -⟩ := h.current
  obtain ⟨-, -, -, heffect⟩ := append_effect hf hs
  cases heffect with
  | rolls _ _ _ hlast' _ _ =>
      rw [hlast']
      exact hroll
  | refused hstays _ _ =>
      rw [hstays.lastRoll]
      exact hlast
  | looked hstays _ _ _ =>
      rw [hstays.lastRoll]
      exact hlast
  | counted hstays _ _ _ =>
      rw [hstays.lastRoll]
      exact hlast

/-- The names are in the order of the files. -/
theorem FilesInv.names_sorted (h : FilesInv bytes s)
    (hlast : s.lastRoll < secondsToYear10000) :
    (s.files.map (·.name)).Pairwise (· < ·) := by
  have hincreasing := h.increasing
  rw [List.pairwise_map] at hincreasing ⊢
  refine hincreasing.imp_of_mem fun {f g} hf hg hlt => ?_
  obtain ⟨hpos, hfname⟩ := h.named f hf
  obtain ⟨-, hgname⟩ := h.named g hg
  rw [hfname, hgname]
  exact getLogFileName_lt hpos hlt (Int.lt_of_le_of_lt (h.latest g hg) hlast)

theorem run_lastRoll {limit : Int} {as : List LogAppend} :
    ∀ {bytes : List UInt8} {s : LogFile}, FilesInv bytes s →
      s.lastRoll < limit → (∀ a ∈ as, FullWrite a ∧ a.rollNow < limit) →
      Holds (run append s as) fun s' =>
        FilesInv (bytes ++ as.flatMap (·.logline)) s' ∧ s'.lastRoll < limit := by
  induction as with
  | nil =>
      intro bytes s h hlast _
      rw [List.flatMap_nil, List.append_nil]
      exact holds_ok ⟨h, hlast⟩
  | cons a as ih =>
      intro bytes s h hlast hall
      obtain ⟨hfull, hroll⟩ := hall a List.mem_cons_self
      obtain ⟨s', hs', h'⟩ := append_files h hfull
      rw [run_cons_ok as hs', List.flatMap_cons, ← List.append_assoc]
      exact ih h' (append_lastRoll h hs' hlast hroll) fun b hb =>
        hall b (List.mem_cons_of_mem a hb)

/-- A listing of the files in the order of their names is the files in the
order in which they were opened. -/
theorem listing_eq {files listing : List OpenFile}
    (hsorted : (files.map (·.name)).Pairwise (· < ·))
    (hperm : listing.Perm files)
    (hlisted : (listing.map (·.name)).Pairwise (· < ·)) : listing = files := by
  rw [List.pairwise_map] at hsorted hlisted
  exact List.Perm.eq_of_pairwise
    (fun f g _ _ hfg hgf => absurd hgf (List.lt_asymm hfg))
    hlisted hsorted hperm

/-- As long as the clock shows a year of four digits, whatever is appended
and whenever the log is rolled, the files listed by their names are in the
order in which they were opened, and one behind the other they are the
lines. -/
theorem listed_files_are_lines {name : LogName} {rollSize : Nat}
    {flushInterval now : Int} {s₀ : LogFile} (as : List LogAppend)
    (hnew : create name rollSize flushInterval now = .ok s₀) (hnow : 0 < now)
    (hyear : now < secondsToYear10000)
    (has : ∀ a ∈ as, FullWrite a ∧ a.rollNow < secondsToYear10000) :
    ∃ s, run append s₀ as = .ok s
      ∧ (s.files.map (·.name)).Pairwise (· < ·)
      ∧ ∀ listing : List OpenFile, listing.Perm s.files →
          (listing.map (·.name)).Pairwise (· < ·) →
          listing.flatMap (·.content) = as.flatMap (·.logline) := by
  obtain ⟨hfiles, hdays, -⟩ := create_inv hnew hnow
  obtain ⟨s, hrun, h, hlast⟩ := run_lastRoll hfiles
    (Int.lt_of_le_of_lt hdays.reached hyear) has
  have hsorted := h.names_sorted hlast
  refine ⟨s, hrun, hsorted, fun listing hperm hlisted => ?_⟩
  rw [listing_eq hsorted hperm hlisted]
  exact h.content

/-- Two files, opened on two sides of a new year. -/
theorem listed_files_are_lines_new_year :
    ∃ s₀ s, create ⟨['a'], ['h'], 7⟩ 1 3 946684799 = .ok s₀
      ∧ run append s₀ [⟨[1, 2], [2], 946684799, 946684800, 946684800⟩,
          ⟨[3], [1], 946684801, 946684801, 946684801⟩] = .ok s
      ∧ s.files.map (·.content) = [[1, 2], [3]]
      ∧ (s.files.map (·.name)).Pairwise (· < ·) := by
  obtain ⟨s₀, hnew, ht⟩ : Holds (create ⟨['a'], ['h'], 7⟩ 1 3 946684799)
      fun s => Holds (run append s
        [⟨[1, 2], [2], 946684799, 946684800, 946684800⟩,
          ⟨[3], [1], 946684801, 946684801, 946684801⟩]) fun t =>
        t.files.map (·.content) = [[1, 2], [3]] := by
    decide +kernel
  obtain ⟨t, ht, hcontent⟩ := ht
  obtain ⟨s, hrun, hsorted, -⟩ := listed_files_are_lines
    [⟨[1, 2], [2], 946684799, 946684800, 946684800⟩,
      ⟨[3], [1], 946684801, 946684801, 946684801⟩] hnew (by decide) (by decide)
    (by decide)
  cases ht.symm.trans hrun
  exact ⟨s₀, _, hnew, hrun, hcontent, hsorted⟩

end LogFile

end Cobra
