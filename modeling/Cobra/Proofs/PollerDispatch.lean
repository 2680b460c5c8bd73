/-
The two pollers dispatch alike: as long as the calls are those on which
they agree about what the kernel is asked (`Allowed`), a poll of both over
the same bits makes the same channels active, among those with an
interest, and tells each the same `revents`; provided `events_` has room
for what the kernel reports.

# What a poll changes

Only `revents`, in the channels and in the array, which neither poller
reads again. So the polls keep `Paired`, the invariant of the calls
(`Paired.same`).

# The bits

A channel that is on is added in epoll's set, with its interest, and has
an entry that is on in the array, with its interest as a `short`. Both
kernels report the ready bits that the interest, `POLLERR` or `POLLHUP`
have; these are all among the low fifteen, so that the bits are positive as
a `short` as soon as there is one, and `signExtend` gives back what epoll
has found (`short_found`).

# Without an interest

A channel whose interest is empty is left out: after a first update with an
empty interest both kernels still report its errors and hang-ups, and
after further ones epoll's may and poll(2) does not, since an entry that is
off is never switched on.
-/
import Cobra.PollerDispatch
import Cobra.Proofs.EpollPoll

namespace Cobra

open Machine ChannelMem

-- ============================================================== the bits

/-- What poll(2) reports of an entry with the interest `events`. -/
def shortFound (ready : BitVec 16) (events : BitVec 32) : BitVec 16 :=
  ready &&& (events.truncate 16 ||| (POLLERR ||| POLLHUP).truncate 16)

/-- The bits of an interest, an error and a hang-up fit. -/
theorem IsInterest.mask {e : BitVec 32} (h : IsInterest e) :
    (e.truncate 16 ||| (POLLERR ||| POLLHUP).truncate 16).msb = false
      ∧ (e.truncate 16 ||| (POLLERR ||| POLLHUP).truncate 16).setWidth 32
        = reportable e := by
  rcases h with h | h | h | h <;> rw [h] <;> decide

theorem IsInterest.msb_found {e : BitVec 32} (h : IsInterest e)
    (ready : BitVec 16) : (shortFound ready e).msb = false := by
  unfold shortFound
  rw [BitVec.msb_and, h.mask.1, Bool.and_false]

/-- What poll(2) has found, as the channel is told. -/
theorem IsInterest.short_found {e : BitVec 32} (h : IsInterest e)
    (ready : BitVec 16) :
    (shortFound ready e).signExtend 32 = ready.setWidth 32 &&& reportable e := by
  rw [BitVec.signExtend_eq_setWidth_of_msb_false (h.msb_found ready)]
  unfold shortFound
  rw [BitVec.setWidth_and, h.mask.2]

/-- A bit found makes the `short` positive. -/
theorem IsInterest.pos_found {e : BitVec 32} (h : IsInterest e)
    (ready : BitVec 16) : 0 < (shortFound ready e).toInt
      ↔ ready.setWidth 32 &&& reportable e ≠ 0#32 := by
  rw [← h.short_found,
    BitVec.signExtend_eq_setWidth_of_msb_false (h.msb_found ready),
    BitVec.toInt_eq_toNat_of_msb (h.msb_found ready), ne_eq,
    ← BitVec.toNat_inj, BitVec.toNat_setWidth, BitVec.toNat_ofNat]
  have hlt := (shortFound ready e).isLt
  omega

-- ======================================================= what polls change

namespace PollPoller

variable {p q : PollPoller} {m m' : ChannelMem} {c : Nat} {st : Stage}

theorem At.same (h : At p m c st) (hchan : q.channels = p.channels)
    (hentries : SameEntries p.pollfds q.pollfds) (hmem : SameInterest m m') :
    At q m' c st := by
  obtain ⟨hfd, hevents, hindex⟩ := hmem c
  refine ⟨fun hst => ?_, fun hst => ?_, fun hst => ?_, fun hst => ?_,
    fun hst => ?_⟩
  · rw [hindex]
    exact h.new hst
  · rw [hindex]
    exact h.old hst
  · rw [hfd, hchan]
    exact h.unknown hst
  · unfold Registered
    rw [hfd, hchan]
    exact h.known hst
  · obtain ⟨pfd, hpfd, hshort, hsign⟩ := h.entry hst
    obtain ⟨pfd', hpfd', hfd', hevents'⟩ := hentries.at hpfd
    refine ⟨pfd', ?_, ?_, ?_⟩
    · rw [hindex]
      exact hpfd'
    · rw [hevents', hevents]
      exact hshort
    · rw [hfd', hfd]
      exact hsign

/-- Nothing is dispatched when poll(2) returns zero. -/
theorem fillActiveChannels_zero (p : PollPoller) (m : ChannelMem)
    (active : List Nat) : p.fillActiveChannels m 0 active = .ok (m, active) := by
  unfold fillActiveChannels
  cases p.pollfds with
  | nil => rfl
  | cons pfd pfds =>
      unfold fillFrom
      exact if_neg (Int.lt_irrefl 0)

/-- A poll fills the active channels with what poll(2) has found. -/
theorem poll_eq (p : PollPoller) (m : ChannelMem) (revents : Nat → BitVec 16)
    (active : List Nat) : p.poll m (some revents) active
      = (p.writeRevents revents).fillActiveChannels m
          (p.writeRevents revents).numEvents active >>= fun r =>
        .ok (p.writeRevents revents, r.1, r.2) := by
  unfold poll
  simp only
  split
  next => rfl
  next hzero =>
    rw [Nat.eq_zero_of_not_pos hzero, Int.ofNat_zero, fillActiveChannels_zero,
      ok_bind]

end PollPoller

variable {fds : Nat ↪ Nat} {s : Pair}

/-- Polls keep the pollers paired. -/
theorem Paired.same (h : Paired fds s) {m₁ m₂ : ChannelMem} {q : PollPoller}
    (hm₁ : SameInterest s.1.mem m₁) (hm₂ : SameInterest s.2.mem m₂)
    (hchan : q.channels = s.2.poller.channels)
    (hentries : PollPoller.SameEntries s.2.poller.pollfds q.pollfds) :
    Paired fds ({ s.1 with mem := m₁ }, { s.2 with poller := q, mem := m₂ })
    where
  reg := h.reg.same hm₁
  table := h.table.same hchan hentries hm₂
  fd c := (hm₂ c).1.trans (h.fd c)
  events c := by
    rw [(hm₁ c).2.1, (hm₂ c).2.1]
    exact h.events c
  mask c := by
    rw [(hm₂ c).2.1]
    exact h.mask c
  stage := h.stage
  none c := by
    rw [isNoneEvent_congr (hm₂ c).2.1]
    exact h.none c
  known c hup := (h.known c hup).same hm₁
  added c hst := by
    rw [(hm₁ c).2.2]
    exact h.added c hst
  poll c := (h.poll c).same hchan hentries hm₂

/-- A channel with an interest is on. -/
theorem Paired.on_of_interest (h : Paired fds s) {c : Nat}
    (hc : (s.2.mem c).isNoneEvent = false) : s.2.stage c = .on := by
  rw [h.none c, bne_eq_false_iff_eq] at hc
  exact hc

-- ============================================================= dispatch

/-- The bits the descriptors have, as epoll reports them. -/
def wide (ready : Nat → BitVec 16) (fd : Nat) : BitVec 32 :=
  (ready fd).setWidth 32

/-- What is on the list of a poll(2) poller, of the channels with an
interest: those with a bit to report. -/
structure PollDispatch (s : Pair) (ready : Nat → BitVec 16) (m : ChannelMem)
    (active : List Nat) : Prop where
  nodup : active.Nodup
  mem : ∀ c, (s.2.mem c).isNoneEvent = false →
    (c ∈ active ↔ EPollPoller.found (wide ready) (s.2.mem c) ≠ 0#32)
  told : ∀ c ∈ active, (s.2.mem c).isNoneEvent = false →
    (m c).revents = EPollPoller.found (wide ready) (s.2.mem c)

theorem Paired.poll_dispatch (h : Paired fds s) (ready : Nat → BitVec 16) :
    ∃ q m active, s.2.poller.poll s.2.mem
        (some (s.2.poller.answer ready)) [] = .ok (q, m, active)
      ∧ q.channels = s.2.poller.channels
      ∧ PollPoller.SameEntries s.2.poller.pollfds q.pollfds
      ∧ SameInterest s.2.mem m ∧ PollDispatch s ready m active := by
  have hentries := PollPoller.sameEntries_writeRevents s.2.poller
    (s.2.poller.answer ready)
  obtain ⟨q, hq⟩ : ∃ q, q = s.2.poller.writeRevents (s.2.poller.answer ready) :=
    ⟨_, rfl⟩
  have hchan : q.channels = s.2.poller.channels := by rw [hq]; rfl
  rw [← hq] at hentries
  have htable : q.TableInv s.2.mem :=
    h.table.same hchan hentries fun c => ⟨rfl, rfl, rfl⟩
  obtain ⟨m, new, hfill, hmem, hdisp⟩ := htable.fillActiveChannels
    (fun pfd hpfd => PollPoller.writeRevents_off (by rw [← hq]; exact hpfd)) []
  rw [List.nil_append] at hfill
  -- the entry of a channel with an interest, after poll(2)
  have hentry : ∀ c, (s.2.mem c).isNoneEvent = false →
      q.Registered s.2.mem c ∧ ∃ pfd,
        q.pollfds[(s.2.mem c).index.toNat]? = some pfd
          ∧ pfd.revents = shortFound (ready (s.2.mem c).fd) (s.2.mem c).events := by
    intro c hc
    have hon := h.on_of_interest hc
    have hup : (s.2.stage c).updated = true := by rw [hon]; rfl
    obtain ⟨pfd, hpfd, hevents, hsign⟩ := (h.poll c).entry hup
    rw [hon, if_neg (by decide)] at hsign
    refine ⟨?_, pfd.writeRevents (s.2.poller.answer ready
      (s.2.mem c).index.toNat), ?_, ?_⟩
    · unfold PollPoller.Registered
      rw [hchan]
      exact (h.poll c).known hup
    · rw [hq]
      unfold PollPoller.writeRevents
      rw [List.getElem?_mapIdx, hpfd]
      rfl
    · unfold PollFd.writeRevents PollPoller.answer shortFound
      simp only [hpfd]
      rw [hsign, if_neg (by omega), Int.toNat_natCast, hevents]
  refine ⟨q, m, new, ?_, hchan, hentries, hmem, hdisp.nodup, fun c hc => ?_,
    fun c hnew hc => ?_⟩
  · rw [PollPoller.poll_eq, ← hq, hfill, ok_bind]
  · obtain ⟨hreg, pfd, hpfd, hrevents⟩ := hentry c hc
    have hpos := (h.mask c).pos_found (ready (s.2.mem c).fd)
    rw [← hrevents] at hpos
    rw [hdisp.mem]
    constructor
    · rintro ⟨-, pfd', hpfd', hfired⟩
      rw [hpfd] at hpfd'
      cases hpfd'
      exact hpos.1 hfired
    · intro hne
      exact ⟨hreg, pfd, hpfd, hpos.2 hne⟩
  · obtain ⟨-, pfd, hpfd, hrevents⟩ := hentry c hc
    obtain ⟨pfd', hpfd', htold⟩ := hdisp.told c hnew
    rw [hpfd] at hpfd'
    cases hpfd'
    rw [htold]
    show pfd.revents.signExtend 32 = _
    rw [hrevents]
    exact (h.mask c).short_found _

-- ================================================================= runs

namespace BothPollers

variable {s s' : BothPollers}

/-- `EPollPoller`, by itself. -/
def loop (s : BothPollers) : EpollLoop :=
  ⟨s.epoll.poller, s.events, s.epoll.mem, s.epollActive⟩

/-- The pollers agree about the calls, and `events_` is there. -/
structure Sound (fds : Nat ↪ Nat) (s : BothPollers) : Prop where
  paired : Paired fds s.pair
  loop : EpollLoop.Sound fds s.loop

theorem sound_create : Sound fds (create fds) :=
  ⟨paired_sideBySide, EPollPoller.regInv_create, 0, List.length_replicate⟩

/-- The calls on which the pollers agree, and every poll. -/
def MayAct (s : BothPollers) : BothAct → Prop
  | .call a => Allowed s.pair a
  | .poll _ _ => True

instance (s : BothPollers) : (a : BothAct) → Decidable (MayAct s a)
  | .call a => inferInstanceAs (Decidable (Allowed s.pair a))
  | .poll _ _ => .isTrue trivial

theorem Sound.poll (h : Sound fds s) (order : List Nat)
    (ready : Nat → BitVec 16) :
    ∃ s', s.step (.poll order ready) = .ok s' ∧ Sound fds s'
      ∧ EpollLoop.Dispatches s.loop order (wide ready) s'.loop
      ∧ PollDispatch s.pair ready s'.poll.mem s'.pollActive := by
  obtain ⟨t, hstep, hsound, hdisp⟩ := h.loop.poll order (wide ready)
  obtain ⟨⟨events, m₁, active₁⟩, hepoll, ht⟩ := bind_ok_inv hstep
  cases ht
  obtain ⟨q, m₂, active₂, hpoll, hchan, hentries, hmem, hpdisp⟩ :=
    h.paired.poll_dispatch ready
  refine ⟨⟨{ s.epoll with mem := m₁ }, { s.poll with poller := q, mem := m₂ },
    events, active₁, active₂⟩, ?_, ⟨?_, hsound⟩, hdisp, hpdisp⟩
  · have hepoll' : s.epoll.poller.poll s.events s.epoll.mem
        (some (order, fun fd => (ready fd).setWidth 32)) []
        = .ok (events, m₁, active₁) := hepoll
    have hpoll' : s.poll.poller.poll s.poll.mem
        (some (s.poll.poller.answer ready)) [] = .ok (q, m₂, active₂) := hpoll
    simp only [step, hepoll', ok_bind, hpoll', Except.mapError]
  · exact h.paired.same hdisp.sameInterest hmem hchan hentries

theorem Sound.call (h : Sound fds s) {a : ChannelCall}
    (hC : Allowed s.pair a) :
    ∃ s', s.step (.call a) = .ok s' ∧ Sound fds s' := by
  obtain ⟨x, y, hx, hy, hpaired⟩ := paired_step h.paired hC
  refine ⟨{ s with epoll := x, poll := y }, ?_, hpaired, hpaired.reg,
    h.loop.size⟩
  have hboth : both epollStep pollStep s.pair a = .ok (x, y) := by
    unfold both
    rw [hx, hy]
  simp only [step, hboth, Except.mapError, ok_bind]

theorem Sound.step (h : Sound fds s) {a : BothAct} (hC : MayAct s a) :
    ∃ s', s.step a = .ok s' ∧ Sound fds s' := by
  cases a with
  | call a => exact h.call hC
  | poll order ready =>
      obtain ⟨s', hok, hsound, -⟩ := h.poll order ready
      exact ⟨s', hok, hsound⟩

/-- The channel asks for events. -/
def wants (s : BothPollers) (c : Nat) : Bool := !(s.poll.mem c).isNoneEvent

theorem wants_iff {c : Nat} :
    s.wants c = true ↔ (s.poll.mem c).isNoneEvent = false := by
  unfold wants
  rw [Bool.not_eq_true']

/-- What epoll reports of the channels with an interest. -/
theorem Sound.mem_epoll (h : Sound fds s) {order : List Nat}
    {ready : Nat → BitVec 16}
    (hdisp : EpollLoop.Dispatches s.loop order (wide ready) s'.loop)
    (hroom : s.loop.reports order (wide ready) ≤ s.events.length)
    (hall : ∀ fd ∈ s.epoll.poller.epoll.keys, fd ∈ order) {c : Nat}
    (hc : s.wants c = true) : c ∈ s'.epollActive
      ↔ EPollPoller.found (wide ready) (s.poll.mem c) ≠ 0#32 := by
  have hsame : EPollPoller.found (wide ready) (s.epoll.mem c)
      = EPollPoller.found (wide ready) (s.poll.mem c) := by
    have hfd : (s.epoll.mem c).fd = (s.poll.mem c).fd :=
      (h.paired.reg.fd c).trans (h.paired.fd c).symm
    have hevents : (s.epoll.mem c).events = (s.poll.mem c).events :=
      h.paired.events c
    unfold EPollPoller.found
    rw [hfd, hevents]
  have hon : s.poll.stage c = .on :=
    h.paired.on_of_interest (wants_iff.1 hc)
  rw [← hsame]
  constructor
  · intro hmem
    exact (hdisp.told c hmem).2.2.1
  · intro hne
    have hadded := h.paired.added c hon
    have hshow : Finmap.lookup (s.epoll.mem c).fd s.epoll.poller.epoll
        = some ((s.epoll.mem c).events, c) := h.paired.reg.shows c hadded
    refine hdisp.all hroom c hadded (hall _ ?_) hne
    exact Finmap.mem_keys.2 (Finmap.mem_iff.2 ⟨_, hshow⟩)

/-- In every run of calls on which the pollers agree about what to ask,
with polls of both in between, neither fails; and a poll of both makes the
same channels active, each once, among those with an interest, and tells
them the same. -/
theorem same_dispatch (fds : Nat ↪ Nat) (acts : List BothAct)
    (hC : Along BothPollers.step MayAct (create fds) acts) :
    ∃ s, run BothPollers.step (create fds) acts = .ok s
      ∧ ∀ (order : List Nat) (ready : Nat → BitVec 16),
        s.loop.reports order (wide ready) ≤ s.events.length →
        (∀ fd ∈ s.epoll.poller.epoll.keys, fd ∈ order) →
        ∃ s', s.step (.poll order ready) = .ok s'
          ∧ s'.epollActive.Nodup ∧ s'.pollActive.Nodup
          ∧ (s'.epollActive.filter s.wants).Perm
            (s'.pollActive.filter s.wants)
          ∧ ∀ c ∈ s'.epollActive, s.wants c = true →
            (s'.epoll.mem c).revents = (s'.poll.mem c).revents := by
  obtain ⟨s, hrun, h⟩ := run_safe (I := Sound fds)
    (fun s a hs hCa => hs.step hCa) sound_create hC
  refine ⟨s, hrun, fun order ready hroom hall => ?_⟩
  obtain ⟨s', hok, -, hdisp, hpdisp⟩ := h.poll order ready
  have hmem : ∀ c, s.wants c = true →
      (c ∈ s'.epollActive ↔ c ∈ s'.pollActive) := by
    intro c hc
    rw [h.mem_epoll hdisp hroom hall hc]
    exact (hpdisp.mem c (wants_iff.1 hc)).symm
  refine ⟨s', hok, hdisp.nodup, hpdisp.nodup, ?_, fun c hc hwants => ?_⟩
  · refine (List.perm_ext_iff_of_nodup (hdisp.nodup.filter _)
      (hpdisp.nodup.filter _)).2 fun c => ?_
    rw [List.mem_filter, List.mem_filter]
    exact and_congr_left (hmem c)
  · have hfd : (s.epoll.mem c).fd = (s.poll.mem c).fd :=
      (h.paired.reg.fd c).trans (h.paired.fd c).symm
    have hevents : (s.epoll.mem c).events = (s.poll.mem c).events :=
      h.paired.events c
    rw [hpdisp.told c ((hmem c hwants).1 hc) (wants_iff.1 hwants)]
    rw [show s'.epoll.mem c = _ from (hdisp.told c hc).2.2.2]
    show EPollPoller.found _ (s.epoll.mem c) = _
    unfold EPollPoller.found
    rw [hfd, hevents]
    rfl

/-- Two channels read, one of them writes, and another has been emptied. -/
def mixed : List BothAct :=
  [.call (.interest 3 .enableReading), .call (.interest 4 .enableWriting),
    .call (.interest 5 .enableReading), .call (.interest 5 .disableAll),
    .poll [3] fun _ => 1, .call (.interest 4 .enableReading)]

theorem same_dispatch_mixed : ∃ s s',
    run BothPollers.step (create (.refl Nat)) mixed = .ok s
      ∧ s.step (.poll [5, 4, 3] fun _ => 0x14#16) = .ok s'
      ∧ s'.pollActive = [3, 4] ∧ s'.epollActive.Nodup
      ∧ (s'.epollActive.filter s.wants).Perm (s'.pollActive.filter s.wants) := by
  obtain ⟨s, hrun, hall⟩ := same_dispatch (.refl Nat) mixed
    (along_of_check (by decide +kernel))
  obtain ⟨t, ht, hroom, horder, t', ht', hpoll⟩ :
      Holds (run BothPollers.step (create (.refl Nat)) mixed) fun s =>
        s.loop.reports [5, 4, 3] (wide fun _ => 0x14#16) ≤ s.events.length
        ∧ (∀ fd ∈ s.epoll.poller.epoll.keys, fd ∈ [5, 4, 3])
        ∧ Holds (s.step (.poll [5, 4, 3] fun _ => 0x14#16)) fun s' =>
          s'.pollActive = [3, 4] := by
    decide +kernel
  rw [hrun] at ht
  cases ht
  obtain ⟨s', hok, hnodup, -, hperm, -⟩ :=
    hall [5, 4, 3] (fun _ => 0x14#16) hroom horder
  rw [ht'] at hok
  cases hok
  exact ⟨s, t', hrun, ht', hpoll, hnodup, hperm⟩

end BothPollers

end Cobra
