/-
The head of every record of a thread is right, although the texts of the
second and of the thread's id are mostly those of an earlier record.

# What is cached

`Cached` says that `t_time` has the text of `t_lastSecond`, and
`t_tidString` that of the thread's id. A new thread has neither: its
`t_lastSecond` is zero, which is a second of its own, and a first record
within it would be written with no text at all. The assertion of `T` stops
it, as those of `formatTime` and `cacheTid` stop a text of another length.
-/
import Cobra.LogTime
import Cobra.Proofs.Logging
import Cobra.Proofs.TimeText

namespace Cobra

open Machine Detail Calendar

-- ============================================================= the arrays

section Arrays

variable {mem text : List UInt8}

/-- A text in front of a zero has its length. -/
theorem strlen_text (htext : 0 ∉ text) (rest : List UInt8) :
    strlen (text ++ 0 :: rest) = .ok text.length := by
  have hmem : (0 : UInt8) ∈ text ++ 0 :: rest :=
    List.mem_append_right _ List.mem_cons_self
  unfold strlen
  rw [require_bind hmem, List.idxOf_append_of_notMem htext,
    List.idxOf_cons_self, Nat.add_zero]

/-- `snprintf` into an array of 32 characters. -/
theorem snprintfTo_ok (hmem : mem.length = 32) (text : List UInt8) :
    ∃ mem', snprintfTo mem 0 32 text = .ok (mem', text.length)
      ∧ mem'.length = 32
      ∧ (text.length < 32 → ∃ rest, mem' = text ++ 0 :: rest) := by
  have hcut : (text.take (32 - 1) ++ [0]).length ≤ 32 := by
    rw [List.length_append, List.length_take, List.length_singleton]
    omega
  refine ⟨Window.overlay mem 0 (text.take (32 - 1) ++ [0]), ?_, ?_, ?_⟩
  · unfold snprintfTo
    rw [put_ok (by omega), ok_bind]
  · rw [Window.length_overlay (by omega), hmem]
  · intro hlt
    refine ⟨mem.drop (text.length + 1), ?_⟩
    rw [List.take_of_length_le (by omega)]
    unfold Window.overlay
    rw [List.take_zero, List.nil_append, List.append_assoc,
      List.length_append, List.length_singleton, Nat.zero_add,
      List.singleton_append]

theorem ascii_append (a b : List Char) : ascii (a ++ b) = ascii a ++ ascii b :=
  List.map_append

end Arrays

-- ============================================================= the texts

section Texts

variable {text : List Char} {c : Char}

/-- Every character is a byte, and none is zero. -/
def Visible (text : List Char) : Prop :=
  ∀ c ∈ text, 0 < c.toNat ∧ c.toNat < 256

instance (text : List Char) : Decidable (Visible text) :=
  List.decidableBAll _ text

theorem Visible.zero_notMem (h : Visible text) : 0 ∉ ascii text := by
  intro hmem
  obtain ⟨c, hc, hzero⟩ := List.mem_map.1 hmem
  have hbounds := h c hc
  have hnat : c.toNat % 256 = 0 := congrArg UInt8.toNat hzero
  omega

theorem visible_append {a b : List Char} :
    Visible (a ++ b) ↔ Visible a ∧ Visible b := by
  unfold Visible
  exact List.forall_mem_append

theorem visible_cons : Visible (c :: text)
    ↔ (0 < c.toNat ∧ c.toNat < 256) ∧ Visible text := List.forall_mem_cons

theorem visible_twoDigits {n : Nat} (h : n < 100) : Visible (twoDigits n) := by
  have hall : ∀ n < 100, Visible (twoDigits n) := by decide +kernel
  exact hall n h

theorem visible_formatU (n : Nat) : Visible (formatU n) := by
  intro c hc
  have hdigit := Nat.isDigit_of_mem_toDigits (by decide) (by decide) hc
  obtain ⟨hlow, hhigh⟩ : 48 ≤ c.toNat ∧ c.toNat ≤ 57 := by
    simpa [Char.isDigit, UInt32.le_iff_toNat_le] using hdigit
  omega

theorem visible_secondText {n : Nat} : Visible (secondText n) := by
  have hvalid := dateOf_valid (n / 86400)
  have hmonth := hvalid.month_le
  have hday := hvalid.day_le
  simp only [secondText, visible_append, visible_cons]
  refine ⟨visible_formatU _, visible_twoDigits (by omega),
    visible_twoDigits (by omega), by decide, visible_twoDigits (by omega),
    by decide, visible_twoDigits (by omega), by decide,
    visible_twoDigits (by omega)⟩

theorem visible_sixDigits {n : Nat} (h : n < 1000000) :
    Visible (sixDigits n) := by
  simp only [sixDigits, visible_append]
  exact ⟨visible_twoDigits (by omega), visible_twoDigits (by omega),
    visible_twoDigits (by omega)⟩

theorem visible_tidText (tid : Nat) : Visible (tidText tid) := by
  simp only [tidText, visible_append]
  refine ⟨⟨fun c hc => ?_, visible_formatU tid⟩, by decide⟩
  rw [List.eq_of_mem_replicate hc]
  decide

/-- The text of a second has 17 characters up to the year 9999. -/
theorem length_secondText (n : Nat) :
    (secondText n).length = 17 ↔ n < secondsToYear10000 := by
  obtain ⟨hlow, hhigh⟩ := dateOf_year_bounds (n / 86400)
  have hyear := length_formatU_year hlow
  have hlen : (secondText n).length
      = (formatU (dateOf (n / 86400)).year).length + 13 := by
    simp only [secondText, List.length_append, List.length_cons, twoDigits,
      List.length_nil]
  unfold secondsToYear10000
  omega

theorem length_tidText (tid : Nat) :
    (tidText tid).length = 6 ↔ tid < 100000 := by
  have h5 : (formatU tid).length ≤ 5 ↔ tid < 10 ^ 5 :=
    Nat.length_toDigits_le_iff (by decide) (by decide)
  have hlen : (tidText tid).length
      = 5 - (formatU tid).length + (formatU tid).length + 1 := by
    simp only [tidText, List.length_append, List.length_replicate,
      List.length_singleton]
  omega

end Texts

-- ============================================================ the header

section Header

variable {mem content : List UInt8} {text : List Char}

/-- The array has the text, and a zero behind it. -/
def HasText (text : List Char) (mem : List UInt8) : Prop :=
  ∃ rest, mem = ascii text ++ 0 :: rest

theorem HasText.strlen (h : HasText text mem) (htext : Visible text) :
    Detail.strlen mem = .ok text.length := by
  obtain ⟨rest, rfl⟩ := h
  rw [strlen_text htext.zero_notMem, length_ascii]

/-- A text is in the array, so that it is not as the thread found it. -/
theorem HasText.written {n : Nat} (h : HasText (secondText n) mem)
    (hn : n < secondsToYear10000) : mem ≠ List.replicate 32 0 := by
  rintro rfl
  have hlength := h.strlen visible_secondText
  rw [(length_secondText n).2 hn] at hlength
  revert hlength
  decide

/-- A text whose length is known, with room for it. -/
theorem known_fill {len : Nat} (h : HasText text mem) (hlen : text.length = len)
    (hroom : content.length + len < kSmallBuffer) :
    (known mem len).fill kSmallBuffer content = content ++ ascii text := by
  obtain ⟨rest, rfl⟩ := h
  have hint : len < intMod := by
    have hsmall : kSmallBuffer < intMod := by decide
    omega
  have hcast : castSize (castInt len) = len := by
    rw [castInt_of_lt hint]
    exact castSize_of_nat (Nat.lt_trans hint (by decide))
  have hsize : (known (ascii text ++ 0 :: rest) len).size
      < kSmallBuffer - content.length := by
    show castSize (castInt len) < _
    omega
  rw [Item.fill_text rfl hsize]
  congr 1
  show (ascii text ++ 0 :: rest).take (castSize (castInt len)) = _
  rw [hcast, ← hlen, ← length_ascii, List.take_left]

/-- What is inserted stays in front. -/
theorem prefix_filled (content : List UInt8) (items : List Item) :
    content <+: filled content items := by
  induction items generalizing content with
  | nil => exact List.prefix_rfl
  | cons item items ih =>
      rw [filled_cons]
      refine .trans ?_ (ih _)
      unfold Item.fill
      split
      next => exact List.prefix_append ..
      next => exact List.prefix_rfl

end Header

namespace LogThread

variable {gettid micros : Nat} {s s' : LogThread} {c : LogCall}

-- ============================================================= the cache

/-- `t_time` has not been written, or has the text of the second. -/
structure Cached (gettid : Nat) (s : LogThread) : Prop where
  length_time : s.time.length = 32
  time : (s.lastSecond = 0 ∧ s.time = List.replicate 32 0)
    ∨ (s.lastSecond < secondsToYear10000
      ∧ HasText (secondText s.lastSecond) s.time)
  length_tid : s.tidString.length = 32
  tid : s.cachedTid ≠ 0 → gettid < 100000 ∧ HasText (tidText gettid) s.tidString

theorem start_cached (gettid : Nat) : Cached gettid start where
  length_time := List.length_replicate
  time := .inl ⟨rfl, rfl⟩
  length_tid := List.length_replicate
  tid := fun h => absurd rfl h

theorem second_lt_iff :
    micros / microsPerSecond < secondsToYear10000
      ↔ micros < microsToYear10000 :=
  Nat.div_lt_iff_lt_mul (by decide)

/-- The text of the second is there. -/
def Current (micros : Nat) (s : LogThread) : Prop :=
  s.lastSecond = micros / microsPerSecond
    ∧ HasText (secondText (micros / microsPerSecond)) s.time

/-- `t_time` is brought up to date, unless it has not been written and the
second is the one that `t_lastSecond` starts with. -/
theorem updateTime_ok (h : Cached gettid s) (hyear : micros < microsToYear10000) :
    Holds (s.updateTime micros) fun s' => Cached gettid s'
      ∧ s'.headers = s.headers ∧ s'.cachedTid = s.cachedTid
      ∧ (Current micros s' ∨ s' = s ∧ micros / microsPerSecond = 0
        ∧ s.time = List.replicate 32 0) := by
  have hsecond := second_lt_iff.2 hyear
  have hlen := (length_secondText _).2 hsecond
  unfold updateTime
  simp only
  split
  next hne =>
    obtain ⟨time, htime, hlength, hshows⟩ := snprintfTo_ok h.length_time
      (ascii (secondText (micros / microsPerSecond)))
    rw [length_ascii, hlen] at htime hshows
    have hshows := hshows (by decide)
    rw [htime]
    simp only [Except.mapError, ok_bind]
    refine ⟨_, rfl, ?_, rfl, rfl, .inl ⟨rfl, hshows⟩⟩
    exact { h with length_time := hlength, time := .inr ⟨hsecond, hshows⟩ }
  next heq =>
    have heq := Decidable.not_not.1 heq
    refine holds_ok ⟨h, rfl, rfl, ?_⟩
    obtain ⟨hzero, htime⟩ | ⟨-, hshows⟩ := h.time
    · exact .inr ⟨rfl, heq.trans hzero, htime⟩
    · refine .inl ⟨heq.symm, ?_⟩
      rw [heq]
      exact hshows

/-- A text of another length is not written. -/
theorem updateTime_inv (h : Cached gettid s) (hs : s.updateTime micros = .ok s') :
    micros < microsToYear10000 := by
  rw [← second_lt_iff]
  unfold updateTime at hs
  simp only at hs
  split at hs
  next hne =>
    obtain ⟨time, htime, -⟩ := snprintfTo_ok h.length_time
      (ascii (secondText (micros / microsPerSecond)))
    rw [htime] at hs
    simp only [Except.mapError, ok_bind] at hs
    obtain ⟨_, hreq, -⟩ := bind_ok_inv hs
    have hlen := require_inv hreq
    rw [length_ascii] at hlen
    exact (length_secondText _).1 hlen
  next heq =>
    have heq := Decidable.not_not.1 heq
    rw [heq]
    obtain ⟨hzero, -⟩ | ⟨hlt, -⟩ := h.time
    · rw [hzero]
      decide
    · exact hlt

theorem cacheTid_ok (h : Cached gettid s) (htid : gettid < 100000) :
    Holds (s.cacheTid gettid) fun s' => Cached gettid s'
      ∧ s'.headers = s.headers ∧ s'.time = s.time
      ∧ s'.lastSecond = s.lastSecond
      ∧ HasText (tidText gettid) s'.tidString := by
  have hlen := (length_tidText gettid).2 htid
  unfold cacheTid
  split
  next hzero =>
    obtain ⟨tidString, htext, hlength, hshows⟩ := snprintfTo_ok h.length_tid
      (ascii (tidText gettid))
    rw [length_ascii, hlen] at htext hshows
    have hshows := hshows (by decide)
    rw [htext]
    simp only [Except.mapError, ok_bind]
    refine ⟨_, rfl, ?_, rfl, rfl, rfl, hshows⟩
    exact { h with length_tid := hlength, tid := fun _ => ⟨htid, hshows⟩ }
  next hne => exact holds_ok ⟨h, rfl, rfl, rfl, (h.tid hne).2⟩

theorem cacheTid_inv (h : Cached gettid s) (hs : s.cacheTid gettid = .ok s') :
    gettid < 100000 := by
  unfold cacheTid at hs
  split at hs
  next hzero =>
    obtain ⟨tidString, htext, -⟩ := snprintfTo_ok h.length_tid
      (ascii (tidText gettid))
    rw [htext] at hs
    simp only [Except.mapError, ok_bind] at hs
    obtain ⟨_, hreq, -⟩ := bind_ok_inv hs
    have hlen := require_inv hreq
    rw [length_ascii] at hlen
    exact (length_tidText gettid).1 hlen
  next hne => exact (h.tid hne).1

-- ============================================================ the record

/-- The texts that the constructor finds are those of its assertions. -/
theorem context_ok (htime : Current c.micros s)
    (htid : HasText (tidText gettid) s.tidString) (hlen : gettid < 100000)
    (hyear : c.micros < microsToYear10000) : (s.context c).Ok := by
  have hmicros : c.micros % microsPerSecond < 1000000 :=
    Nat.mod_lt _ (by decide)
  have hvisible : Visible (microsText (c.micros % microsPerSecond)) :=
    visible_cons.2 ⟨by decide, visible_append.2
      ⟨visible_sixDigits hmicros, by decide⟩⟩
  refine ⟨c.length_mem, ?_, ⟨rfl, ?_⟩, ?_, c.strerror_ends⟩
  · have hlength := htime.2.strlen visible_secondText
    rw [(length_secondText _).2 (second_lt_iff.2 hyear)] at hlength
    exact hlength
  · have hshows : HasText (microsText (c.micros % microsPerSecond))
        (ascii (microsText (c.micros % microsPerSecond)) ++ [0]) := ⟨[], rfl⟩
    exact hshows.strlen hvisible
  · have hlength := htid.strlen (visible_tidText gettid)
    rw [(length_tidText gettid).2 hlen] at hlength
    exact hlength

/-- The time and the microseconds are the formatted timestamp. -/
theorem formatTime_text (hyear : c.micros < microsToYear10000) :
    toFormattedString c.micros ++ ['Z', ' ']
      = secondText (c.micros / microsPerSecond)
        ++ microsText (c.micros % microsPerSecond) := by
  have hlen := (length_secondText _).2 (second_lt_iff.2 hyear)
  unfold toFormattedString snprintf microsText
  rw [List.take_of_length_le, List.append_assoc]
  rw [List.length_append, hlen]
  exact (by decide : 17 + 7 ≤ 32 - 1)

theorem create_header (htime : Current c.micros s)
    (htid : HasText (tidText gettid) s.tidString) (hlen : gettid < 100000)
    (hyear : c.micros < microsToYear10000) :
    Holds (LoggerImpl.create (s.context c) c.level c.savedErrno c.file c.line)
      fun impl => impl.stream.content.take 38 = headerOf gettid c := by
  have hctx := context_ok htime htid hlen hyear
  refine holds_mono (LoggerImpl.create_ok hctx c.level c.savedErrno c.file
    c.line) ?_
  rintro impl ⟨⟨-, hcontent⟩, -, -⟩
  have hsecond := (length_secondText _).2 (second_lt_iff.2 hyear)
  have htidlen := (length_tidText gettid).2 hlen
  have hlevellen : c.level.name.toList.length = 6 := by
    cases c.level <;> rfl
  have hmicros : HasText (microsText (c.micros % microsPerSecond))
      (ascii (microsText (c.micros % microsPerSecond)) ++ [0]) := ⟨[], rfl⟩
  have hmicroslen : (microsText (c.micros % microsPerSecond)).length = 9 := rfl
  have hlevel : HasText c.level.name.toList (literal c.level.name) := ⟨[], rfl⟩
  have hhead : filled [] [known s.time 17,
      known (ascii (microsText (c.micros % microsPerSecond)) ++ [0]) 9,
      known s.tidString 6, known (literal c.level.name) 6]
      = headerOf gettid c := by
    unfold headerOf
    rw [filled_cons, known_fill htime.2 hsecond (by decide), filled_cons,
      known_fill hmicros hmicroslen, filled_cons, known_fill htid htidlen, filled_cons,
      known_fill hlevel hlevellen, filled_nil, formatTime_text hyear,
      ascii_append, ascii_append, ascii_append, List.nil_append]
    all_goals
      simp only [List.nil_append, List.length_append, length_ascii, hsecond,
        htidlen, hmicroslen]
      decide
  have hlength : (headerOf gettid c).length = 38 := by
    unfold headerOf
    rw [formatTime_text hyear, length_ascii, List.length_append,
      List.length_append, List.length_append, hsecond, hmicroslen, htidlen,
      hlevellen]
  have hfront : headerOf gettid c <+: impl.stream.content := by
    rw [hcontent, header, filled_append, ← hhead]
    exact prefix_filled ..
  rw [← hlength]
  exact (List.prefix_iff_eq_take.1 hfront).symm

/-- Without the text of a second the constructor stops. -/
theorem create_blank (htime : s.time = List.replicate 32 0) :
    LoggerImpl.create (s.context c) c.level c.savedErrno c.file c.line
      = .error .knownLength := by
  have hlt : (s.context c).micros.length < 32 := (by decide : 9 < 32)
  have hlength : (⟨(s.context c).micros, hlt⟩ : Fmt).length = 9 :=
    (by decide : castInt 9 = 9)
  have hzero : strlen (s.context c).time = .ok 0 := by
    show strlen s.time = .ok 0
    rw [htime]
    decide
  have htext : KnownText.create (s.context c).time 17
      = .error .knownLength := by
    unfold KnownText.create
    rw [hzero, ok_bind]
    exact require_fail (by decide) _
  have hformat : LoggerImpl.formatTime (s.context c) (.new c.mem)
      = .error .knownLength := by
    unfold LoggerImpl.formatTime Fmt.create
    rw [dif_pos hlt, ok_bind, require_bind hlength, htext]
    rfl
  show (LoggerImpl.formatTime (s.context c) (.new c.mem) >>= _) = _
  rw [hformat]
  rfl

-- ============================================================== the runs

/-- What holds after the statements `calls` of a thread: `t_time` has been
written as soon as there has been one. -/
structure Logged (gettid : Nat) (calls : List LogCall) (s : LogThread) : Prop
    extends Cached gettid s where
  written : calls ≠ [] → s.time ≠ List.replicate 32 0
  headers : s.headers.map (List.take 38) = calls.map (headerOf gettid)

theorem start_logged (gettid : Nat) : Logged gettid [] start :=
  { start_cached gettid with written := fun h => absurd rfl h, headers := rfl }

/-- When the next statement can be written. -/
def FitsNext (gettid : Nat) (s : LogThread) (c : LogCall) : Prop :=
  gettid < 100000 ∧ c.micros < microsToYear10000
    ∧ (s.time = List.replicate 32 0 → microsPerSecond ≤ c.micros)

theorem step_ok {calls : List LogCall} (h : Logged gettid calls s)
    (hfits : FitsNext gettid s c) :
    Holds (step gettid s c) (Logged gettid (calls ++ [c])) := by
  obtain ⟨htid, hyear, hfirst⟩ := hfits
  unfold step
  refine holds_bind (updateTime_ok h.toCached hyear) ?_
  rintro s₁ ⟨h₁, hheaders₁, -, hcurrent⟩
  have hcurrent : Current c.micros s₁ := by
    obtain hcurrent | ⟨-, hzero, hblank⟩ := hcurrent
    · exact hcurrent
    · have hpos := Nat.div_pos (hfirst hblank) (by decide : 0 < microsPerSecond)
      omega
  refine holds_bind (cacheTid_ok h₁ htid) ?_
  rintro s₂ ⟨h₂, hheaders₂, htime₂, hsecond₂, hshows⟩
  have hcurrent₂ : Current c.micros s₂ := by
    unfold Current
    rw [hsecond₂, htime₂]
    exact hcurrent
  refine holds_bind (holds_mapError
    (create_header hcurrent₂ hshows htid hyear)) fun impl himpl => ?_
  refine holds_ok { h₂ with written := fun _ => ?_, headers := ?_ }
  · exact hcurrent₂.2.written (second_lt_iff.2 hyear)
  · simp only [List.map_append, List.map_cons, List.map_nil]
    rw [hheaders₂, hheaders₁, h.headers, himpl]

theorem step_inv {calls : List LogCall} (h : Logged gettid calls s)
    (hs : step gettid s c = .ok s') : FitsNext gettid s c := by
  obtain ⟨s₁, hs₁, hs⟩ := bind_ok_inv hs
  obtain ⟨s₂, hs₂, hs⟩ := bind_ok_inv hs
  obtain ⟨impl, himpl, -⟩ := bind_ok_inv hs
  have hyear := updateTime_inv h.toCached hs₁
  obtain ⟨h₁, -⟩ := (updateTime_ok h.toCached hyear).of_ok hs₁
  have htid := cacheTid_inv h₁ hs₂
  refine ⟨htid, hyear, fun hblank => ?_⟩
  by_contra hless
  have hzero : c.micros / microsPerSecond = 0 :=
    Nat.div_eq_of_lt (Nat.not_le.1 hless)
  -- in the second that `t_lastSecond` starts with, nothing is written
  have hlast : s.lastSecond = 0 := by
    obtain ⟨hlast, -⟩ | ⟨hlt, hshows⟩ := h.time
    · exact hlast
    · exact absurd hblank (hshows.written hlt)
  have hsame : s.updateTime c.micros = .ok s := by
    unfold updateTime
    simp only [hzero, hlast, ne_eq, not_true, if_false]
  obtain rfl : s = s₁ := Except.ok.inj (hsame.symm.trans hs₁)
  obtain ⟨-, -, htime, -⟩ := (cacheTid_ok h₁ htid).of_ok hs₂
  rw [create_blank (htime.trans hblank)] at himpl
  cases himpl

/-- What the rest of the statements has to meet. -/
def FitsFrom (gettid : Nat) (s : LogThread) (calls : List LogCall) : Prop :=
  (calls ≠ [] → gettid < 100000) ∧ (∀ c ∈ calls, c.micros < microsToYear10000)
    ∧ ∀ c, calls.head? = some c → s.time = List.replicate 32 0 →
      microsPerSecond ≤ c.micros

theorem run_logged {calls : List LogCall} :
    ∀ {done : List LogCall} {s t : LogThread}, Logged gettid done s →
      run (step gettid) s calls = .ok t → Logged gettid (done ++ calls) t := by
  induction calls with
  | nil =>
      intro done s t h hrun
      cases hrun
      rw [List.append_nil]
      exact h
  | cons c calls ih =>
      intro done s t h hrun
      obtain ⟨s', hs', hrest⟩ := run_cons_inv hrun
      rw [List.append_cons]
      exact ih ((step_ok h (step_inv h hs')).of_ok hs') hrest

theorem run_iff {calls : List LogCall} : ∀ {done : List LogCall} {s : LogThread},
    Logged gettid done s →
      ((∃ t, run (step gettid) s calls = .ok t) ↔ FitsFrom gettid s calls) := by
  induction calls with
  | nil =>
      intro done s _
      exact iff_of_true ⟨s, rfl⟩ ⟨fun hne => absurd rfl hne, nofun, nofun⟩
  | cons c calls ih =>
      intro done s h
      constructor
      · rintro ⟨t, hrun⟩
        obtain ⟨s', hs', hrest⟩ := run_cons_inv hrun
        obtain ⟨htid, hyear, hfirst⟩ := step_inv h hs'
        have h' := (step_ok h ⟨htid, hyear, hfirst⟩).of_ok hs'
        obtain ⟨-, hyears, -⟩ := (ih h').1 ⟨t, hrest⟩
        refine ⟨fun _ => htid, List.forall_mem_cons.2 ⟨hyear, hyears⟩, ?_⟩
        rintro d hd hblank
        cases hd
        exact hfirst hblank
      · rintro ⟨htid, hyears, hfirst⟩
        obtain ⟨hyear, hyears⟩ := List.forall_mem_cons.1 hyears
        have htid := htid (List.cons_ne_nil c calls)
        obtain ⟨s', hs', h'⟩ := step_ok h ⟨htid, hyear, hfirst c rfl⟩
        have hwritten := h'.written (List.append_ne_nil_of_right_ne_nil _
          (List.cons_ne_nil c []))
        obtain ⟨t, hrest⟩ := (ih h').2 ⟨fun _ => htid, hyears,
          fun _ _ hblank => absurd hblank hwritten⟩
        exact ⟨t, (run_cons_ok calls hs').trans hrest⟩

/-- The records of a thread have the right heads, although the texts are
cached, exactly if the thread's id has at most five digits, the years have
four, and the first record is not written in the first second of the
epoch. A head is the timestamp as `toFormattedString` writes it, the
thread's id, and the level. -/
theorem headers_iff (gettid : Nat) (calls : List LogCall) :
    (∃ s, run (step gettid) start calls = .ok s
        ∧ s.headers.map (List.take 38) = calls.map (headerOf gettid))
      ↔ Fits gettid calls := by
  have hfits : FitsFrom gettid start calls ↔ Fits gettid calls := by
    refine and_congr_right' (and_congr_right' ?_)
    exact forall_congr' fun c => forall_congr' fun _ => forall_prop_of_true rfl
  rw [← hfits, ← run_iff (start_logged gettid)]
  constructor
  · rintro ⟨s, hrun, -⟩
    exact ⟨s, hrun⟩
  · rintro ⟨s, hrun⟩
    exact ⟨s, hrun, (run_logged (start_logged gettid) hrun).headers⟩

end LogThread

end Cobra
