/-
The two pollers side by side, on the same channels and the same calls.

# Where they part

`EPollPoller` makes a removed channel new again and adds an emptied one
back when it gets an interest. `PollPoller` does neither: `removeChannel`
leaves `index_` where it was, so the next update looks for the channel in
the map and fails; and an entry is switched off with the interest and
never switched on, so the kernel is not asked again. A channel registered
without interest is the third case: its entry is on, and
`PollPoller::removeChannel` asserts that it is off.

# Exactly there

`Allowed` rules the three calls out. On all others the pollers agree:
neither fails, and `asks` is the same for both, namely the channels that
are `on` with their interests (`Paired.epoll_asks`, `Paired.poll_asks`).
On each of the three they disagree at once. `inStep_iff` is both
directions, over every sequence of calls.
-/
import Cobra.Proofs.EpollRun

namespace Cobra

open Machine ChannelMem

-- ============================================================ interests

/-- The masks the interest operations can make. -/
def IsInterest (e : BitVec 32) : Prop :=
  e = kNoneEvent ∨ e = kReadEvent ∨ e = kWriteEvent
    ∨ e = kReadEvent ||| kWriteEvent

theorem InterestOp.isInterest (op : InterestOp) {ch : Channel}
    (h : IsInterest ch.events) : IsInterest (op.apply ch).events := by
  unfold IsInterest at h ⊢
  cases op with
  | enableReading =>
      show ch.events ||| kReadEvent = _ ∨ ch.events ||| kReadEvent = _
        ∨ ch.events ||| kReadEvent = _ ∨ ch.events ||| kReadEvent = _
      rcases h with h | h | h | h <;> rw [h] <;> decide
  | enableWriting =>
      show ch.events ||| kWriteEvent = _ ∨ ch.events ||| kWriteEvent = _
        ∨ ch.events ||| kWriteEvent = _ ∨ ch.events ||| kWriteEvent = _
      rcases h with h | h | h | h <;> rw [h] <;> decide
  | disableWriting =>
      show ch.events &&& ~~~ kWriteEvent = _ ∨ ch.events &&& ~~~ kWriteEvent = _
        ∨ ch.events &&& ~~~ kWriteEvent = _ ∨ ch.events &&& ~~~ kWriteEvent = _
      rcases h with h | h | h | h <;> rw [h] <;> decide
  | disableAll => exact .inl rfl

/-- `static_cast<short>` loses nothing of them. -/
theorem IsInterest.short {e : BitVec 32} (h : IsInterest e) :
    (e.truncate 16).signExtend 32 = e := by
  rcases h with h | h | h | h <;> rw [h] <;> decide

/-- An interest operation on one channel leaves all of them with such
masks. -/
theorem isInterest_interest {m : ChannelMem}
    (h : ∀ c, IsInterest (m c).events) (c : Nat) (op : InterestOp)
    (c' : Nat) : IsInterest (m.interest c op c').events := by
  unfold ChannelMem.interest
  by_cases hc : c' = c
  · subst hc
    rw [setEvents_self]
    exact op.isInterest (h c')
  · rw [setEvents_of_ne _ hc]
    exact h c'

-- ========================================================= one channel

namespace PollPoller

variable {p p' : PollPoller} {m m' : ChannelMem} {c c' : Nat} {st : Stage}

/-- `PollPoller` and a channel at a stage: the index and the map, and for
a channel that is registered its entry, which is off at the stage `off`
only. -/
structure At (p : PollPoller) (m : ChannelMem) (c : Nat) (st : Stage) :
    Prop where
  new : st = .fresh → (m c).index = -1
  old : st = .gone → 0 ≤ (m c).index
  unknown : st.updated = false → Finmap.lookup (m c).fd p.channels = none
  known : st.updated = true → Registered p m c
  entry : st.updated = true → ∃ pfd,
    p.pollfds[(m c).index.toNat]? = some pfd
      ∧ pfd.events = (m c).events.truncate 16
      ∧ pfd.fd = if st = .off then -((m c).fd : Int) - 1 else (m c).fd

/-- An interest is not what `At` is about, but for the entry. -/
theorem Registered.setEvents (h : Registered p m c) (c' : Nat)
    (events : BitVec 32) : Registered p (m.setEvents c' events) c := by
  unfold Registered
  rw [(setEvents_frame m c' c events).1]
  exact h

theorem At.congr (h : At p m c st) (hm : m' c = m c) : At p m' c st where
  new := by rw [hm]; exact h.new
  old := by rw [hm]; exact h.old
  unknown := by rw [hm]; exact h.unknown
  known := by unfold Registered; rw [hm]; exact h.known
  entry := by rw [hm]; exact h.entry

/-- A call for another channel leaves the channel at its stage. -/
theorem At.elsewhere (h : At p m c' st) (he : Elsewhere p m c p' m')
    (hne : c' ≠ c) (hfd : (m c').fd ≠ (m c).fd)
    (hidx : 0 ≤ (m c').index → 0 ≤ (m' c').index) : At p' m' c' st where
  new := by
    intro hst
    rw [he.fresh c' (by rw [h.new hst]; decide) hne]
    exact h.new hst
  old := fun hst => hidx (h.old hst)
  unknown := by
    intro hst
    rw [(he.frame c').1, he.channels _ hfd]
    exact h.unknown hst
  known := fun hst => he.registered (h.known hst) hne
  entry := by
    intro hst
    rw [he.entry c' (h.known hst) hne, (he.frame c').1, (he.frame c').2]
    exact h.entry hst

/-- A removal does not make an index negative. -/
theorem removeChannel_index (h : p.removeChannel m c = .ok (p', m'))
    (hidx : 0 ≤ (m c').index) : 0 ≤ (m' c').index := by
  obtain ⟨-, ht⟩ := removeChannel_cases h
  rcases takeOut_cases ht with ⟨-, -, rfl⟩ | ⟨-, last, c₁, -, -, -, rfl⟩
  · exact hidx
  · by_cases hc : c' = c₁
    · subst hc
      rw [setIndex_self]
      exact Int.natCast_nonneg _
    · rw [setIndex_of_ne _ hc]
      exact hidx

/-- Neither does an update. -/
theorem UpdateChannel_index (h : p.UpdateChannel m c = .ok (p', m'))
    (hidx : 0 ≤ (m c').index) : 0 ≤ (m' c').index := by
  rcases UpdateChannel_cases h with ⟨-, -, -, rfl⟩ | ⟨-, -, pfd, -, -, rfl⟩
  · by_cases hc : c' = c
    · subst hc
      rw [setIndex_self]
      exact Int.natCast_nonneg _
    · rw [setIndex_of_ne _ hc]
      exact hidx
  · exact hidx

-- -------------------------------------------------------- the two calls

/-- The first update: the entry is made, and is on. -/
theorem At.update_fresh (h : At p m c .fresh) {events : BitVec 32}
    (hm : m' = m.setEvents c events) :
    ∃ p₁ m₁, p.UpdateChannel m' c = .ok (p₁, m₁)
      ∧ At p₁ m₁ c (Stage.fresh.update (m' c).isNoneEvent) := by
  have hself : m' c = { m c with events := events } := by
    rw [hm, setEvents_self]
  have hidx : (m' c).index = -1 := by
    rw [hself]
    exact h.new rfl
  have hfd : (m' c).fd = (m c).fd := by rw [hself]
  have hok : p.UpdateChannel m' c = .ok
      ({ pollfds := p.pollfds ++ [⟨(m' c).fd, (m' c).events.truncate 16, 0⟩]
         channels := Finmap.insert (m' c).fd c p.channels },
        m'.setIndex c p.pollfds.length) := by
    unfold UpdateChannel
    simp only
    rw [if_pos (by rw [hidx]; decide),
      require_bind (by rw [hfd]; exact h.unknown rfl)]
  have hst : Stage.fresh.update (m' c).isNoneEvent ≠ .fresh
      ∧ Stage.fresh.update (m' c).isNoneEvent ≠ .gone
      ∧ Stage.fresh.update (m' c).isNoneEvent ≠ .off := by
    cases (m' c).isNoneEvent <;> decide
  refine ⟨_, _, hok, fun h' => absurd h' hst.1, fun h' => absurd h' hst.2.1,
    fun h' => ?_, fun _ => ?_, fun _ => ?_⟩
  · simp [Stage.updated, hst.1, hst.2.1] at h'
  · unfold Registered
    rw [setIndex_self]
    exact Finmap.lookup_insert _
  · rw [setIndex_self, if_neg hst.2.2]
    exact ⟨⟨(m' c).fd, (m' c).events.truncate 16, 0⟩,
      List.getElem?_concat_length, rfl, rfl⟩

/-- A further update: the entry shows the interest, and is off if there
is none or if it was off before. -/
theorem At.update_known (h : At p m c st) (hinv : TableInv p m)
    (hup : st.updated = true) {events : BitVec 32}
    (hm : m' = m.setEvents c events) :
    ∃ p₁, p.UpdateChannel m' c = .ok (p₁, m') ∧ Registered p₁ m' c
      ∧ ∃ pfd, p₁.pollfds[(m' c).index.toNat]? = some pfd
        ∧ pfd.events = (m' c).events.truncate 16
        ∧ pfd.fd = if (m' c).isNoneEvent = true ∨ st = .off
          then -((m' c).fd : Int) - 1 else (m' c).fd := by
  have hinv' : TableInv p m' := by
    rw [hm]
    exact hinv.setEvents c events
  have hreg : Registered p m' c := by
    rw [hm]
    exact (h.known hup).setEvents c events
  obtain ⟨⟨p₁, m₁⟩, hok, hreg₁, -⟩ := UpdateChannel_registered hinv' hreg
  have hidx : (m' c).index = (m c).index := by rw [hm, setEvents_self]
  have hfd : (m' c).fd = (m c).fd := by rw [hm, setEvents_self]
  rcases UpdateChannel_cases hok with ⟨hneg, -, -, -⟩
    | ⟨-, -, pfd, hpfd, hp₁, hm₁⟩
  · exact absurd (hinv'.own _ _ hreg).2 (by omega)
  · subst hp₁ hm₁
    obtain ⟨pfd', hpfd', -, hoff⟩ := h.entry hup
    rw [← hidx, hpfd] at hpfd'
    cases hpfd'
    refine ⟨_, hok, hreg₁, pfd.refresh (m₁ c),
      List.getElem?_set_self (hinv'.index_lt hreg), rfl, ?_⟩
    unfold PollFd.refresh
    cases hnone : (m₁ c).isNoneEvent with
    | true => simp
    | false => simp [hoff, hfd]

/-- The updates after which the channel is at its next stage: not one
that gives an interest to an entry that is off. -/
theorem At.update_allowed (h : At p m c st) (hinv : TableInv p m)
    {events : BitVec 32} (hm : m' = m.setEvents c events)
    (hgone : st ≠ .gone) (hoff : st = .off → (m' c).isNoneEvent = true) :
    ∃ p₁ m₁, p.UpdateChannel m' c = .ok (p₁, m₁)
      ∧ At p₁ m₁ c (st.update (m' c).isNoneEvent) := by
  by_cases hfresh : st = .fresh
  · subst hfresh
    exact h.update_fresh hm
  · have hup : st.updated = true := by simp [Stage.updated, hfresh, hgone]
    obtain ⟨p₁, hok, hreg, pfd, hpfd, hevents, hfd⟩ :=
      h.update_known hinv hup hm
    have hst : st.update (m' c).isNoneEvent ≠ .fresh
        ∧ st.update (m' c).isNoneEvent ≠ .gone
        ∧ (st.update (m' c).isNoneEvent = .off
          ↔ ((m' c).isNoneEvent = true ∨ st = .off)) := by
      revert hoff hup
      cases (m' c).isNoneEvent <;> cases st <;> decide
    refine ⟨p₁, m', hok, fun h' => absurd h' hst.1,
      fun h' => absurd h' hst.2.1, fun h' => ?_, fun _ => hreg,
      fun _ => ⟨pfd, hpfd, hevents, ?_⟩⟩
    · simp [Stage.updated, hst.1, hst.2.1] at h'
    · rw [hfd]
      simp only [hst.2.2]

/-- An update of a removed channel fails. -/
theorem At.update_gone (h : At p m c .gone) {events : BitVec 32}
    (hm : m' = m.setEvents c events) :
    p.UpdateChannel m' c = .error .updateKnown := by
  have hidx := h.old rfl
  have hunk := h.unknown rfl
  have hidx' : (m' c).index = (m c).index := by rw [hm, setEvents_self]
  have hfd : (m' c).fd = (m c).fd := by rw [hm, setEvents_self]
  unfold UpdateChannel
  simp only
  rw [if_neg (by omega), require_fail (by rw [hfd]; exact not_not.2 hunk)]

/-- The removal of a channel whose entry is off. -/
theorem At.remove_off (h : At p m c .off) (hinv : TableInv p m)
    (hnone : (m c).isNoneEvent = true) :
    ∃ p₁ m₁, p.removeChannel m c = .ok (p₁, m₁) ∧ At p₁ m₁ c .gone := by
  obtain ⟨pfd, hpfd, hevents, hfd⟩ := h.entry rfl
  have hshown : Shown p m c := ⟨pfd, hpfd, hevents, fun _ => hfd⟩
  obtain ⟨⟨p₁, m₁⟩, hok, hunk⟩ :=
    removeChannel_registered hinv (h.known rfl) hshown hnone
  have hidx := removeChannel_index hok (hinv.own _ _ (h.known rfl)).2
  have hsame := ((removeChannel_elsewhere hinv hok).frame c).1
  refine ⟨p₁, m₁, hok, fun h' => (by cases h'), fun _ => hidx, fun _ => ?_,
    fun h' => (by cases h'), fun h' => (by cases h')⟩
  rw [hsame]
  exact hunk.1

/-- The removal of a channel whose entry is on fails. -/
theorem At.remove_blank (h : At p m c .blank) (hinv : TableInv p m)
    (hnone : (m c).isNoneEvent = true) :
    p.removeChannel m c = .error .removeFd := by
  obtain ⟨pfd, hpfd, -, hfd⟩ := h.entry rfl
  have hreg := h.known rfl
  have hentry : p.entryAt (m c).index .removeIndex
      = .ok ((m c).index.toNat, pfd) := by
    unfold entryAt
    rw [if_pos (hinv.own _ _ hreg).2, hpfd]
  unfold removeChannel
  simp only
  rw [require_bind hreg.ne_none, require_bind hreg.known, require_bind hnone,
    hentry, ok_bind]
  refine require_fail (fun hoff => ?_) _
  have hneg := hoff.1
  rw [hfd, if_neg (by decide)] at hneg
  omega

end PollPoller

-- ======================================================== side by side

/-- The two runs. -/
abbrev Pair : Type := PollerRun EPollPoller × PollerRun PollPoller

/-- The channels look the same to both pollers, both are in order, and
each channel is at its stage. -/
structure Paired (fds : Nat ↪ Nat) (s : Pair) : Prop where
  reg : s.1.poller.RegInv fds s.1.mem
  table : s.2.poller.TableInv s.2.mem
  fd : ∀ c, (s.2.mem c).fd = fds c
  events : ∀ c, (s.1.mem c).events = (s.2.mem c).events
  mask : ∀ c, IsInterest (s.2.mem c).events
  stage : s.1.stage = s.2.stage
  none : ∀ c, (s.2.mem c).isNoneEvent = (s.2.stage c != .on)
  known : ∀ c, (s.2.stage c).updated = true →
    s.1.poller.Registered s.1.mem c
  added : ∀ c, s.2.stage c = .on → (s.1.mem c).index = kAdded
  poll : ∀ c, s.2.poller.At s.2.mem c (s.2.stage c)

variable {fds : Nat ↪ Nat} {s s' : Pair}

theorem paired_sideBySide : Paired fds (sideBySide fds) where
  reg := EPollPoller.regInv_create
  table := ⟨fun fd c hc => (by cases hc), DenseTable.indexes_nil⟩
  fd := fun _ => rfl
  events := fun _ => rfl
  mask := fun _ => .inl rfl
  stage := rfl
  none := fun _ => rfl
  known := fun c h => by cases h
  added := fun c h => by cases h
  poll := fun c =>
    ⟨fun _ => rfl, fun h => (by cases h), fun _ => rfl, fun h => (by cases h),
      fun h => (by cases h)⟩

-- --------------------------------------------- what the kernel is asked

/-- `EPollPoller` asks for the channels that are on. -/
theorem Paired.epoll_asks (h : Paired fds s) (fd : Nat) (mask : BitVec 32) :
    s.1.poller.asks fd mask ↔ ∃ c, fds c = fd ∧ s.2.stage c = .on
      ∧ (s.2.mem c).events = mask := by
  constructor
  · intro hasks
    obtain ⟨hmask, hlook⟩ := hasks
    obtain ⟨⟨e, ptr⟩, hset, rfl⟩ := Option.map_eq_some_iff.1 hlook
    obtain ⟨c, rfl⟩ := h.reg.epoll fd (by rw [hset]; simp)
    have hreg : s.1.poller.Registered s.1.mem c := by
      rcases h.reg.standing c with hreg | ⟨-, -, hno⟩
      · exact hreg
      · rw [hno] at hset
        cases hset
    have hshow := h.reg.shows c (hreg.watched.2 (by rw [hset]; simp))
    rw [hset] at hshow
    have he : e = (s.2.mem c).events := by
      rw [← h.events c]
      exact (Prod.mk.inj (Option.some.inj hshow)).1
    refine ⟨c, (h.reg.fd c).symm, ?_, he.symm⟩
    by_contra hon
    have hnone := h.none c
    rw [bne_iff_ne.2 hon] at hnone
    exact hmask (he.trans (beq_iff_eq.1 hnone))
  · intro hon
    obtain ⟨c, rfl, hst, rfl⟩ := hon
    have hnone := h.none c
    rw [hst] at hnone
    refine ⟨beq_eq_false_iff_ne.1 hnone, ?_⟩
    have hshow := h.reg.shows c (h.added c hst)
    rw [h.reg.fd c] at hshow
    rw [hshow, ← h.events c]
    rfl

/-- The channel of an entry that is not off. -/
theorem Paired.entry_channel (h : Paired fds s) {pfd : PollFd} {fd : Nat}
    (hmem : pfd ∈ s.2.poller.pollfds) (hfd : pfd.fd = fd) :
    ∃ c, fds c = fd ∧ s.2.poller.Registered s.2.mem c
      ∧ s.2.poller.pollfds[(s.2.mem c).index.toNat]? = some pfd := by
  obtain ⟨i, hi⟩ := List.mem_iff_getElem?.1 hmem
  have hdec := PollFd.decode_on hfd
  have hkey := PollPoller.keys_at hi
  rw [hdec] at hkey
  have hpos := (h.table.table _ _).2 hkey
  unfold PollPoller.position at hpos
  obtain ⟨c, hc, -⟩ := Option.map_eq_some_iff.1 hpos
  rw [← hdec] at hc
  obtain ⟨hreg, hidx⟩ := h.table.index_of_entry hi hc
  refine ⟨c, ?_, hreg, ?_⟩
  · rw [← h.fd c, (h.table.own _ _ hc).1, hdec]
  · rw [hidx]
    exact hi

/-- `PollPoller` asks for the same channels. -/
theorem Paired.poll_asks (h : Paired fds s) (fd : Nat) (mask : BitVec 32) :
    s.2.poller.asks fd mask ↔ ∃ c, fds c = fd ∧ s.2.stage c = .on
      ∧ (s.2.mem c).events = mask := by
  constructor
  · intro hasks
    obtain ⟨hmask, pfd, hmem, hfd, hevents⟩ := hasks
    obtain ⟨c, hc, hreg, hpfd⟩ := h.entry_channel hmem hfd
    have hup : (s.2.stage c).updated = true := by
      cases hup : (s.2.stage c).updated with
      | true => rfl
      | false =>
          have hunk := (h.poll c).unknown hup
          rw [hreg.known] at hunk
          cases hunk
    obtain ⟨pfd', hpfd', hshow, -⟩ := (h.poll c).entry hup
    rw [hpfd] at hpfd'
    cases hpfd'
    rw [hshow, (h.mask c).short] at hevents
    refine ⟨c, hc, ?_, hevents⟩
    by_contra hon
    have hnone := h.none c
    rw [bne_iff_ne.2 hon] at hnone
    exact hmask (hevents.symm.trans (beq_iff_eq.1 hnone))
  · intro hon
    obtain ⟨c, rfl, hst, rfl⟩ := hon
    have hnone := h.none c
    rw [hst] at hnone
    refine ⟨beq_eq_false_iff_ne.1 hnone, ?_⟩
    obtain ⟨pfd, hpfd, hshow, hfd⟩ := (h.poll c).entry (by rw [hst]; rfl)
    rw [hst, if_neg (by decide), h.fd c] at hfd
    refine ⟨pfd, List.mem_of_getElem? hpfd, hfd, ?_⟩
    rw [hshow, (h.mask c).short]

/-- The kernel is asked for the same by both. -/
def SameAsks (x : PollerRun EPollPoller) (y : PollerRun PollPoller) : Prop :=
  ∀ fd mask, x.poller.asks fd mask ↔ y.poller.asks fd mask

theorem Paired.sameAsks (h : Paired fds s) : SameAsks s.1 s.2 := by
  intro fd mask
  rw [h.epoll_asks, h.poll_asks]

-- ------------------------------------------------------- the two steps

section Steps

variable {P : Type}
  {U R : P → ChannelMem → Nat → Except PollerAssert (P × ChannelMem)}
  {x : PollerRun P} {c : Nat} {op : InterestOp}

theorem interest_ok {r : P × ChannelMem}
    (h : U x.poller (x.mem.interest c op) c = .ok r) :
    PollerRun.step U R x (.interest c op) = .ok
      ⟨r.1, r.2, Function.update x.stage c
        ((x.stage c).update (x.mem.interest c op c).isNoneEvent)⟩ := by
  simp only [PollerRun.step, h, ok_bind]

theorem interest_error {e : PollerAssert}
    (h : U x.poller (x.mem.interest c op) c = .error e) :
    PollerRun.step U R x (.interest c op) = .error e := by
  simp only [PollerRun.step, h]
  rfl

theorem remove_ok {r : P × ChannelMem} (hmay : x.mayRemove c = true)
    (h : R x.poller x.mem c = .ok r) :
    PollerRun.step U R x (.remove c) = .ok
      ⟨r.1, r.2, Function.update x.stage c .gone⟩ := by
  simp only [PollerRun.step, hmay, if_true, h, ok_bind]

theorem remove_error {e : PollerAssert} (hmay : x.mayRemove c = true)
    (h : R x.poller x.mem c = .error e) :
    PollerRun.step U R x (.remove c) = .error e := by
  simp only [PollerRun.step, hmay, if_true, h]
  rfl

theorem remove_skip (hmay : x.mayRemove c = false) :
    PollerRun.step U R x (.remove c) = .ok x := by
  simp only [PollerRun.step, hmay, if_neg Bool.false_ne_true]

end Steps

/-- An interest operation looks at the interest only. -/
theorem InterestOp.apply_events (op : InterestOp) {ch ch' : Channel}
    (h : ch.events = ch'.events) :
    (op.apply ch).events = (op.apply ch').events := by
  cases op with
  | enableReading => exact congrArg (· ||| kReadEvent) h
  | enableWriting => exact congrArg (· ||| kWriteEvent) h
  | disableWriting => exact congrArg (· &&& ~~~ kWriteEvent) h
  | disableAll => rfl

/-- The calls on which the two pollers agree: no update after the
removal, no interest after an update that emptied it, and no removal when
the only update was the registering one. -/
def Allowed (s : Pair) : ChannelCall → Prop
  | .interest c op => s.2.stage c ≠ .gone
      ∧ (s.2.stage c = .off → (s.2.mem.interest c op c).isNoneEvent = true)
  | .remove c => s.2.mayRemove c = true → s.2.stage c ≠ .blank

instance (s : Pair) (a : ChannelCall) : Decidable (Allowed s a) := by
  cases a <;> unfold Allowed <;> infer_instance

/-- What `EPollPoller` makes of an interest operation: it always
succeeds, and a channel with an interest is added. -/
theorem Paired.epoll_interest (h : Paired fds s) (c : Nat) (op : InterestOp) :
    ∃ p m, s.1.poller.UpdateChannel (s.1.mem.interest c op) c = .ok (p, m)
      ∧ p.RegInv fds m ∧ p.Registered m c
      ∧ s.1.poller.Elsewhere (s.1.mem.interest c op) c p m
      ∧ ((s.1.mem.interest c op c).isNoneEvent = false →
        (m c).index = kAdded) := by
  obtain ⟨p, m, hok, hinv, hreg⟩ :=
    h.reg.UpdateChannel c (op.apply (s.1.mem c)).events
  refine ⟨p, m, hok, hinv, hreg, EPollPoller.UpdateChannel_elsewhere hok,
    fun hsome => ?_⟩
  have hidx := (EPollPoller.UpdateChannel_issued hok).2
  rw [hidx, if_neg]
  unfold EPollPoller.updateOp
  split
  · simp
  · rw [if_neg (by rw [← interest, hsome]; simp)]
    simp

/-- The interest a channel has after an operation is the same on both
sides. -/
theorem Paired.interest_events (h : Paired fds s) (c : Nat) (op : InterestOp)
    (c' : Nat) : (s.1.mem.interest c op c').events
      = (s.2.mem.interest c op c').events := by
  unfold interest
  by_cases hc : c' = c
  · subst hc
    rw [setEvents_self, setEvents_self]
    exact op.apply_events (h.events c')
  · rw [setEvents_of_ne _ hc, setEvents_of_ne _ hc]
    exact h.events c'

theorem isNoneEvent_congr {ch ch' : Channel} (h : ch.events = ch'.events) :
    ch.isNoneEvent = ch'.isNoneEvent := by
  unfold Channel.isNoneEvent
  rw [h]

theorem Stage.update_ne_on (st : Stage) (b : Bool) :
    (st.update b != .on) = b := by
  cases st <;> cases b <;> rfl

/-- After an interest operation on both sides, with the channel at its
next stage in `PollPoller`, the two are paired again. -/
theorem Paired.interest (h : Paired fds s) {c : Nat} {op : InterestOp}
    {p : EPollPoller} {m₁ m₂ : ChannelMem} {q : PollPoller}
    (hreg : p.RegInv fds m₁) (hknown : p.Registered m₁ c)
    (he : s.1.poller.Elsewhere (s.1.mem.interest c op) c p m₁)
    (hadded : (s.1.mem.interest c op c).isNoneEvent = false →
      (m₁ c).index = kAdded)
    (hpoll : s.2.poller.UpdateChannel (s.2.mem.interest c op) c = .ok (q, m₂))
    (hat : q.At m₂ c
      ((s.2.stage c).update (s.2.mem.interest c op c).isNoneEvent)) :
    Paired fds
      (⟨p, m₁, Function.update s.1.stage c
        ((s.1.stage c).update (s.1.mem.interest c op c).isNoneEvent)⟩,
        ⟨q, m₂, Function.update s.2.stage c
          ((s.2.stage c).update (s.2.mem.interest c op c).isNoneEvent)⟩) := by
  have hnone := isNoneEvent_congr (h.interest_events c op c)
  have htab : s.2.poller.TableInv (s.2.mem.interest c op) :=
    h.table.setEvents c _
  have hq := PollPoller.UpdateChannel_elsewhere htab hpoll
  have hfd : ∀ c', (s.2.mem.interest c op c').fd = fds c' := by
    intro c'
    rw [← h.fd c']
    exact (setEvents_frame s.2.mem c c' _).1
  refine ⟨hreg, PollPoller.UpdateChannel_tableInv htab hpoll, fun c' => ?_,
    fun c' => ?_, fun c' => ?_, ?_, fun c' => ?_, fun c' => ?_, fun c' => ?_,
    fun c' => ?_⟩
  · exact (hq.frame c').1.trans (hfd c')
  · rw [(he.frame c').2, (hq.frame c').2]
    exact h.interest_events c op c'
  · rw [(hq.frame c').2]
    exact isInterest_interest h.mask c op c'
  · simp only [h.stage, hnone]
  · show (m₂ c').isNoneEvent = (Function.update s.2.stage c _ c' != .on)
    rw [isNoneEvent_congr (hq.frame c').2]
    by_cases hc : c' = c
    · subst hc
      rw [Function.update_self, Stage.update_ne_on]
    · rw [Function.update_of_ne hc, ChannelMem.interest,
        setEvents_of_ne _ hc]
      exact h.none c'
  · show (Function.update s.2.stage c _ c').updated = true → p.Registered m₁ c'
    by_cases hc : c' = c
    · intro _
      rw [hc]
      exact hknown
    · rw [Function.update_of_ne hc]
      intro hup
      exact he.registered ((h.known c' hup).setEvents c _) hc
  · show Function.update s.2.stage c _ c' = .on → (m₁ c').index = kAdded
    by_cases hc : c' = c
    · subst hc
      rw [Function.update_self]
      intro hon
      refine hadded ?_
      have hno := Stage.update_ne_on (s.2.stage c')
        (s.2.mem.interest c' op c').isNoneEvent
      rw [hon] at hno
      rw [hnone, ← hno]
      rfl
    · rw [Function.update_of_ne hc]
      intro hon
      obtain ⟨index, hm⟩ := he.mem
      rw [hm, setIndex_of_ne index hc, ChannelMem.interest,
        setEvents_of_ne _ hc]
      exact h.added c' hon
  · show q.At m₂ c' (Function.update s.2.stage c _ c')
    by_cases hc : c' = c
    · subst hc
      rw [Function.update_self]
      exact hat
    · rw [Function.update_of_ne hc]
      have hat' : s.2.poller.At (s.2.mem.interest c op) c' (s.2.stage c') :=
        (h.poll c').congr (setEvents_of_ne _ hc)
      refine hat'.elsewhere hq hc ?_ (PollPoller.UpdateChannel_index hpoll)
      rw [hfd, hfd]
      intro heq
      exact hc (fds.injective heq)

/-- After a removal on both sides the two are paired again. -/
theorem Paired.remove (h : Paired fds s) {c : Nat} {p : EPollPoller}
    {m₁ m₂ : ChannelMem} {q : PollPoller}
    (hmay : s.2.mayRemove c = true)
    (hepoll : s.1.poller.removeChannel s.1.mem c = .ok (p, m₁))
    (hpoll : s.2.poller.removeChannel s.2.mem c = .ok (q, m₂))
    (hat : q.At m₂ c .gone) :
    Paired fds
      (⟨p, m₁, Function.update s.1.stage c .gone⟩,
        ⟨q, m₂, Function.update s.2.stage c .gone⟩) := by
  have he := EPollPoller.removeChannel_elsewhere hepoll
  have hq := PollPoller.removeChannel_elsewhere h.table hpoll
  have hnone : (s.2.mem c).isNoneEvent = true := by
    unfold PollerRun.mayRemove at hmay
    exact (Bool.and_eq_true_iff.1 hmay).1
  refine ⟨(h.reg.removeChannel hepoll).1,
    PollPoller.removeChannel_tableInv h.table hpoll, fun c' => ?_,
    fun c' => ?_, fun c' => ?_, ?_, fun c' => ?_, fun c' => ?_, fun c' => ?_,
    fun c' => ?_⟩
  · exact (hq.frame c').1.trans (h.fd c')
  · rw [(he.frame c').2, (hq.frame c').2]
    exact h.events c'
  · rw [(hq.frame c').2]
    exact h.mask c'
  · simp only [h.stage]
  · show (m₂ c').isNoneEvent = (Function.update s.2.stage c _ c' != .on)
    rw [isNoneEvent_congr (hq.frame c').2]
    by_cases hc : c' = c
    · subst hc
      rw [Function.update_self]
      exact hnone
    · rw [Function.update_of_ne hc]
      exact h.none c'
  · show (Function.update s.2.stage c _ c').updated = true → p.Registered m₁ c'
    by_cases hc : c' = c
    · subst hc
      rw [Function.update_self]
      intro hup
      cases hup
    · rw [Function.update_of_ne hc]
      intro hup
      exact he.registered (h.known c' hup) hc
  · show Function.update s.2.stage c _ c' = .on → (m₁ c').index = kAdded
    by_cases hc : c' = c
    · subst hc
      rw [Function.update_self]
      intro hon
      cases hon
    · rw [Function.update_of_ne hc]
      intro hon
      obtain ⟨index, hm⟩ := he.mem
      rw [hm, setIndex_of_ne index hc]
      exact h.added c' hon
  · show q.At m₂ c' (Function.update s.2.stage c _ c')
    by_cases hc : c' = c
    · subst hc
      rw [Function.update_self]
      exact hat
    · rw [Function.update_of_ne hc]
      refine (h.poll c').elsewhere hq hc ?_
        (PollPoller.removeChannel_index hpoll)
      rw [h.fd, h.fd]
      intro heq
      exact hc (fds.injective heq)

-- ======================================================== step by step

/-- A channel that may be removed is registered in both, and has no
interest. -/
theorem Paired.mayRemove (h : Paired fds s) {c : Nat} :
    s.1.mayRemove c = s.2.mayRemove c := by
  unfold PollerRun.mayRemove
  rw [isNoneEvent_congr (h.events c), h.stage]

theorem Paired.epoll_remove (h : Paired fds s) {c : Nat}
    (hmay : s.2.mayRemove c = true) :
    ∃ p m, s.1.poller.removeChannel s.1.mem c = .ok (p, m) := by
  unfold PollerRun.mayRemove at hmay
  obtain ⟨hnone, hup⟩ := Bool.and_eq_true_iff.1 hmay
  obtain ⟨⟨p, m⟩, hok, -⟩ := EPollPoller.removeChannel_registered
    (h.known c hup) ((isNoneEvent_congr (h.events c)).trans hnone)
  exact ⟨p, m, hok⟩

/-- An allowed call succeeds on both sides and keeps them paired. -/
theorem paired_step (h : Paired fds s) {a : ChannelCall} (hC : Allowed s a) :
    ∃ x y, epollStep s.1 a = .ok x ∧ pollStep s.2 a = .ok y
      ∧ Paired fds (x, y) := by
  cases a with
  | interest c op =>
      obtain ⟨hgone, hoff⟩ := hC
      obtain ⟨p, m₁, hok₁, hreg, hknown, he, hadded⟩ := h.epoll_interest c op
      obtain ⟨q, m₂, hok₂, hat⟩ :=
        (h.poll c).update_allowed h.table rfl hgone hoff
      exact ⟨_, _, interest_ok hok₁, interest_ok hok₂,
        h.interest hreg hknown he hadded hok₂ hat⟩
  | remove c =>
      cases hmay : s.2.mayRemove c with
      | false =>
          exact ⟨s.1, s.2, remove_skip (h.mayRemove.trans hmay),
            remove_skip hmay, h⟩
      | true =>
          obtain ⟨p, m₁, hok₁⟩ := h.epoll_remove hmay
          have hst : s.2.stage c = .off := by
            have hblank := hC hmay
            have hnone := h.none c
            unfold PollerRun.mayRemove at hmay
            obtain ⟨hn, hup⟩ := Bool.and_eq_true_iff.1 hmay
            rw [hn] at hnone
            cases hcase : s.2.stage c with
            | fresh => rw [hcase] at hup; cases hup
            | blank => exact absurd hcase hblank
            | on => rw [hcase] at hnone; cases hnone
            | off => rfl
            | gone => rw [hcase] at hup; cases hup
          have hoff := h.poll c
          rw [hst] at hoff
          obtain ⟨q, m₂, hok₂, hat⟩ := hoff.remove_off h.table
            (by rw [h.none c, hst]; rfl)
          exact ⟨_, _, remove_ok (h.mayRemove.trans hmay) hok₁,
            remove_ok hmay hok₂, h.remove hmay hok₁ hok₂ hat⟩

/-- An interest for an entry that is off: `EPollPoller` asks the kernel,
`PollPoller` does not. -/
theorem Paired.off_differs (h : Paired fds s) {c : Nat} {op : InterestOp}
    (hst : s.2.stage c = .off)
    (hsome : (s.2.mem.interest c op c).isNoneEvent = false) :
    ¬ InStep epollStep pollStep SameAsks s (.interest c op) := by
  obtain ⟨p, m₁, hok₁, hreg, -, he, hadded⟩ := h.epoll_interest c op
  obtain ⟨q, hok₂, hknown, pfd, hpfd, -, hfd⟩ :=
    (h.poll c).update_known h.table (by rw [hst]; rfl)
      (show s.2.mem.interest c op = _ from rfl)
  rw [if_pos (.inr hst)] at hfd
  have htab : s.2.poller.TableInv (s.2.mem.interest c op) :=
    h.table.setEvents c _
  have htab' := PollPoller.UpdateChannel_tableInv htab hok₂
  have hsome₁ := hsome
  rw [← isNoneEvent_congr (h.interest_events c op c)] at hsome₁
  intro hin
  have hsame := (inStep_of_ok (interest_ok hok₁) (interest_ok hok₂)).1 hin
  have hshow := hreg.shows c (hadded hsome₁)
  have hevents := (he.frame c).2
  have hasks : p.asks (m₁ c).fd (m₁ c).events := by
    refine ⟨?_, ?_⟩
    · rw [hevents]
      exact beq_eq_false_iff_ne.1 hsome₁
    · rw [hshow]
      rfl
  obtain ⟨-, pfd', hmem', hfd', -⟩ := (hsame _ _).1 hasks
  -- the only entry for the descriptor is the one that is off
  obtain ⟨i, hi⟩ := List.mem_iff_getElem?.1 hmem'
  have hown : (m₁ c).fd = (s.2.mem.interest c op c).fd := by
    rw [hreg.fd c, ← h.fd c]
    exact (setEvents_frame s.2.mem c c _).1.symm
  have hpos := (htab'.table _ _).2 (PollPoller.keys_at hi)
  rw [PollFd.decode_on hfd', hown, hknown.position_eq] at hpos
  rw [← Option.some.inj hpos, hpfd] at hi
  cases hi
  omega

/-- A call leaves the pollers in step exactly when it is allowed. -/
theorem Paired.inStep_iff (h : Paired fds s) (a : ChannelCall) :
    InStep epollStep pollStep SameAsks s a ↔ Allowed s a := by
  constructor
  · intro hin
    cases a with
    | interest c op =>
        obtain ⟨p, m₁, hok₁, -⟩ := h.epoll_interest c op
        refine ⟨fun hgone => ?_, fun hoff => ?_⟩
        · have hat := h.poll c
          rw [hgone] at hat
          exact not_inStep_of_error (interest_ok hok₁)
            (interest_error (hat.update_gone rfl)) hin
        · by_contra hsome
          exact h.off_differs hoff (Bool.not_eq_true _ ▸ hsome) hin
    | remove c =>
        intro hmay hblank
        obtain ⟨p, m₁, hok₁⟩ := h.epoll_remove hmay
        have hat := h.poll c
        rw [hblank] at hat
        exact not_inStep_of_error (remove_ok (h.mayRemove.trans hmay) hok₁)
          (remove_error hmay (hat.remove_blank h.table
            (by rw [h.none c, hblank]; rfl))) hin
  · intro hC
    obtain ⟨x, y, hx, hy, hpaired⟩ := paired_step h hC
    rw [inStep_of_ok hx hy]
    exact hpaired.sameAsks

/-- Allowed calls keep the two paired. -/
theorem paired_both {a : ChannelCall} (h : Paired fds s) (hC : Allowed s a)
    (hok : both epollStep pollStep s a = .ok s') : Paired fds s' := by
  obtain ⟨x, y, hx, hy, hpaired⟩ := paired_step h hC
  obtain ⟨hx', hy'⟩ := both_ok_inv hok
  rw [hx] at hx'
  rw [hy] at hy'
  cases hx'
  cases hy'
  exact hpaired

/-- Over every sequence of calls on channels with distinct descriptors
that keeps to the rules of `Channel`, the two pollers fail together and
ask the kernel for the same after every call, exactly when every call is
allowed. -/
theorem pollers_inStep_iff (fds : Nat ↪ Nat) (calls : List ChannelCall) :
    Along (both epollStep pollStep)
        (InStep epollStep pollStep SameAsks) (sideBySide fds) calls
      ↔ Along (both epollStep pollStep) Allowed (sideBySide fds) calls :=
  along_congr (I := Paired fds) (fun _ a h => h.inStep_iff a)
    (fun _ _ _ h hC hok => paired_both h hC hok) paired_sideBySide

/-- A channel is enabled, emptied and enabled again: `EPollPoller` has it
watched, `PollPoller` has not. -/
theorem reenabled_differs :
    ¬ ∀ calls, Along (both epollStep pollStep)
      (InStep epollStep pollStep SameAsks)
      (sideBySide (Function.Embedding.refl Nat)) calls := by
  intro h
  obtain ⟨s, hrun, hs⟩ := map_ok_inv
    (show (run (both epollStep pollStep)
        (sideBySide (Function.Embedding.refl Nat))
        [.interest 7 .enableReading, .interest 7 .disableAll]).map
        (fun s => (s.2.stage 7,
          (s.2.mem.interest 7 .enableReading 7).isNoneEvent))
      = .ok (.off, false) by decide +kernel)
  have hall : Along (both epollStep pollStep) Allowed
      (sideBySide (Function.Embedding.refl Nat))
      [.interest 7 .enableReading, .interest 7 .disableAll] :=
    along_of_check (by decide +kernel)
  have hpaired : Paired (Function.Embedding.refl Nat) s :=
    run_inv (fun _ _ _ h hC hok => paired_both h hC hok) paired_sideBySide
      hall hrun
  exact hpaired.off_differs (Prod.mk.inj hs).1 (Prod.mk.inj hs).2
    (Along.of_run [] (h ([.interest 7 .enableReading,
      .interest 7 .disableAll] ++ [.interest 7 .enableReading])) hrun)

end Cobra
