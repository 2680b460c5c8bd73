/-
Runs of one `EPollPoller`: a poll never fails an assertion, it dispatches
each channel the kernel reports once and with its bits, and no ready
channel waits for more polls than it takes the array to grow to the number
of ready ones.

# Dispatch

What the kernel knows is what the channels have registered (`RegInv`), so
the `data.ptr` of a watched descriptor is the channel that `channels_` has
for it (`RegInv.watched`). `fillFrom` stores the bits in the channels of
the events and appends them (`fillFrom_eq`). The kernel reports no
descriptor twice, and the descriptors of the channels are distinct, so
neither does the list of active channels.

# The array

`events_` doubles when a poll has filled it, and at no other time. What
keeps a ready channel off the list is a full array; as long as the same
descriptors are ready (`Finds`), `n` polls make it `2 ^ n` times as large,
in whatever orders the kernel goes through them (`catch_up`).
-/
import Cobra.EpollPoll
import Cobra.Proofs.PollRun

namespace Cobra

open Machine ChannelMem

-- =========================================================== the kernel

namespace EpollSet

variable {set : EpollSet} {order : List Nat} {ready : Nat → BitVec 32}
  {fd n : Nat} {event : EpollEvent}

theorem report_eq_some : set.report ready fd = some event ↔
    ∃ events, Finmap.lookup fd set = some (events, event.ptr)
      ∧ event.events = ready fd &&& reportable events
      ∧ event.events ≠ 0#32 := by
  unfold report
  rw [Option.bind_eq_some_iff]
  constructor
  · rintro ⟨⟨events, ptr⟩, hlook, hbits⟩
    simp only at hbits
    split at hbits
    next => cases hbits
    next hne =>
      cases hbits
      exact ⟨events, hlook, rfl, hne⟩
  · rintro ⟨events, hlook, hbits, hne⟩
    refine ⟨_, hlook, ?_⟩
    simp only
    rw [← hbits, if_neg hne]

theorem mem_reports : event ∈ order.dedup.filterMap (set.report ready) ↔
    ∃ fd ∈ order, set.report ready fd = some event := by
  rw [List.mem_filterMap]
  simp only [List.mem_dedup]

theorem mem_of_mem_wait (h : event ∈ set.wait order ready n) :
    ∃ fd ∈ order, set.report ready fd = some event :=
  mem_reports.1 (List.mem_of_mem_take h)

/-- A kernel that has not filled the array has reported all there is. -/
theorem wait_of_short (h : (set.wait order ready n).length < n) :
    set.wait order ready n = order.dedup.filterMap (set.report ready) := by
  unfold wait at h ⊢
  rw [List.length_take] at h
  exact List.take_of_length_le (by omega)

end EpollSet

-- ===================================================== storing revents

namespace ChannelMem

variable {m : ChannelMem} {c : Nat} {events : List EpollEvent}

/-- Each event's bits are stored in its channel. -/
def deliver (m : ChannelMem) (events : List EpollEvent) : ChannelMem :=
  events.foldl (fun m event => m.setRevents event.ptr event.events) m

theorem deliver_cons (m : ChannelMem) (event : EpollEvent)
    (events : List EpollEvent) : m.deliver (event :: events)
      = (m.setRevents event.ptr event.events).deliver events := rfl

theorem sameInterest_deliver (m : ChannelMem) (events : List EpollEvent) :
    SameInterest m (m.deliver events) := by
  induction events generalizing m with
  | nil => exact fun c => ⟨rfl, rfl, rfl⟩
  | cons event events ih =>
      rw [deliver_cons]
      exact (sameInterest_setRevents m event.ptr _).trans (ih _)

theorem deliver_of_not_mem (h : c ∉ events.map EpollEvent.ptr) :
    m.deliver events c = m c := by
  induction events generalizing m with
  | nil => rfl
  | cons event events ih =>
      rw [List.map_cons, List.mem_cons, not_or] at h
      rw [deliver_cons, ih h.2, setRevents_of_ne _ h.1]

theorem deliver_of_mem {event : EpollEvent}
    (hnodup : (events.map EpollEvent.ptr).Nodup) (h : event ∈ events) :
    m.deliver events event.ptr
      = { m event.ptr with revents := event.events } := by
  induction events generalizing m with
  | nil => cases h
  | cons e events ih =>
      rw [List.map_cons, List.nodup_cons] at hnodup
      rw [deliver_cons]
      rcases List.mem_cons.1 h with rfl | hmem
      · rw [deliver_of_not_mem hnodup.1, setRevents_self]
      · have hne : event.ptr ≠ e.ptr := by
          intro heq
          exact hnodup.1 (List.mem_map.2 ⟨_, hmem, heq⟩)
        rw [ih hnodup.2 hmem, setRevents_of_ne _ hne]

end ChannelMem

namespace EPollPoller

variable {fds : Nat ↪ Nat} {p : EPollPoller} {m m' : ChannelMem}
  {order : List Nat} {ready : Nat → BitVec 32} {c : Nat}

-- ======================================================= what is watched

theorem Registered.same (h : Registered p m c) (hmem : SameInterest m m') :
    Registered p m' c := by
  obtain ⟨hfd, -, hindex⟩ := hmem c
  refine ⟨?_, ?_, ?_⟩
  · rw [hfd]
    exact h.known
  · rw [hindex]
    exact h.index
  · rw [hfd, hindex]
    exact h.watched

/-- `revents` are not what the registration is about. -/
theorem RegInv.same (h : RegInv fds p m) (hmem : SameInterest m m') :
    RegInv fds p m' := by
  have hfd : ∀ c, (m' c).fd = (m c).fd := fun c => (hmem c).1
  have hindex : ∀ c, (m' c).index = (m c).index := fun c => (hmem c).2.2
  refine ⟨fun c => (hfd c).trans (h.fd c), fun c => ?_, fun c hc => ?_,
    fun fd hfd' => ?_, fun fd hfd' => ?_⟩
  · rcases h.standing c with hreg | ⟨hnew, hunk⟩
    · exact .inl (hreg.same hmem)
    · refine .inr ⟨?_, ?_⟩
      · rw [hindex]
        exact hnew
      · rw [hfd]
        exact hunk
  · rw [hindex] at hc
    rw [hfd, (hmem c).2.1]
    exact h.shows c hc
  · obtain ⟨c, hc⟩ := h.channels fd hfd'
    exact ⟨c, (hfd c).trans hc⟩
  · obtain ⟨c, hc⟩ := h.epoll fd hfd'
    exact ⟨c, (hfd c).trans hc⟩

/-- A descriptor the kernel watches is that of an added channel, watched
for its interest, and `channels_` has the channel for it. -/
theorem RegInv.watched (h : RegInv fds p m) {fd : Nat} {events : BitVec 32}
    (hlook : Finmap.lookup fd p.epoll = some (events, c)) :
    fds c = fd ∧ (m c).index = kAdded ∧ (m c).events = events
      ∧ Finmap.lookup (m c).fd p.channels = some c := by
  obtain ⟨c', rfl⟩ := h.epoll fd (by rw [hlook]; simp)
  have hreg : Registered p m c' := by
    rcases h.standing c' with hreg | ⟨-, -, hno⟩
    · exact hreg
    · rw [hno] at hlook
      cases hlook
  have hadded : (m c').index = kAdded := hreg.watched.2 (by rw [hlook]; simp)
  have hshow := h.shows c' hadded
  rw [hlook] at hshow
  obtain ⟨hevents, rfl⟩ := Prod.mk.inj (Option.some.inj hshow)
  exact ⟨(h.fd c).symm, hadded, hevents.symm, hreg.known⟩

/-- The bits a poll finds for a channel. -/
def found (ready : Nat → BitVec 32) (ch : Channel) : BitVec 32 :=
  ready ch.fd &&& reportable ch.events

/-- What the kernel reports is the bits of an added channel. -/
theorem RegInv.report (h : RegInv fds p m) {fd : Nat} {event : EpollEvent}
    (hrep : p.epoll.report ready fd = some event) :
    fds event.ptr = fd ∧ (m event.ptr).index = kAdded
      ∧ event.events = found ready (m event.ptr)
      ∧ found ready (m event.ptr) ≠ 0#32
      ∧ Finmap.lookup (m event.ptr).fd p.channels = some event.ptr := by
  obtain ⟨events, hlook, hbits, hne⟩ := EpollSet.report_eq_some.1 hrep
  obtain ⟨hfd, hadded, hevents, hknown⟩ := h.watched hlook
  have hfound : event.events = found ready (m event.ptr) := by
    unfold found
    rw [hbits, h.fd, hfd, hevents]
  exact ⟨hfd, hadded, hfound, hfound ▸ hne, hknown⟩

/-- An added channel that is ready is reported. -/
theorem RegInv.report_added (h : RegInv fds p m)
    (hadded : (m c).index = kAdded) (hne : found ready (m c) ≠ 0#32) :
    p.epoll.report ready (fds c) = some ⟨found ready (m c), c⟩ := by
  have hshow := h.shows c hadded
  rw [h.fd] at hshow
  refine EpollSet.report_eq_some.2 ⟨(m c).events, hshow, ?_, hne⟩
  unfold found
  rw [h.fd]

/-- No channel is reported twice. -/
theorem RegInv.wait_nodup (h : RegInv fds p m) (order : List Nat)
    (ready : Nat → BitVec 32) (n : Nat) :
    ((p.epoll.wait order ready n).map EpollEvent.ptr).Nodup := by
  have hsame : ∀ {fd fd' : Nat} {event event' : EpollEvent},
      p.epoll.report ready fd = some event →
      p.epoll.report ready fd' = some event' →
      event.ptr = event'.ptr → fd = fd' := by
    intro fd fd' event event' hrep hrep' hptr
    rw [← (h.report hrep).1, ← (h.report hrep').1, hptr]
  refine List.Nodup.map_on (fun event he event' he' hptr => ?_) ?_
  · obtain ⟨fd, -, hrep⟩ := EpollSet.mem_of_mem_wait he
    obtain ⟨fd', -, hrep'⟩ := EpollSet.mem_of_mem_wait he'
    have hfd := hsame hrep hrep' hptr
    subst hfd
    exact Option.some.inj (hrep.symm.trans hrep')
  · refine List.Nodup.sublist (List.take_sublist ..)
      (List.Nodup.filterMap (fun fd fd' event he he' => ?_)
        (List.nodup_dedup order))
    exact hsame he he' rfl

-- ============================================================= dispatch

/-- The loop, when every event has its channel. -/
theorem fillFrom_eq {channels : ChannelMap} {events : List EpollEvent}
    {active : List Nat}
    (h : ∀ event ∈ events,
      Finmap.lookup (m event.ptr).fd channels = some event.ptr) :
    fillFrom channels events m active
      = .ok (m.deliver events, active ++ events.map EpollEvent.ptr) := by
  induction events generalizing m active with
  | nil =>
      show Except.ok _ = Except.ok _
      rw [List.map_nil, List.append_nil]
      rfl
  | cons event events ih =>
      have hfound := h event List.mem_cons_self
      unfold fillFrom
      simp only
      rw [require_bind (hfound.trans_ne (Option.some_ne_none _)),
        require_bind hfound, ih, deliver_cons, List.map_cons, List.append_assoc]
      · rfl
      · intro e he
        rw [(sameInterest_setRevents m event.ptr event.events e.ptr).1]
        exact h e (List.mem_cons_of_mem _ he)

/-- A poll dispatches what the kernel reports. -/
theorem RegInv.poll (h : RegInv fds p m) {events : List EpollEvent}
    (hpos : 0 < events.length) (order : List Nat) (ready : Nat → BitVec 32)
    (active : List Nat) :
    ∃ events', p.poll events m (some (order, ready)) active
        = .ok (events', m.deliver (p.epoll.wait order ready events.length),
          active ++ (p.epoll.wait order ready events.length).map
            EpollEvent.ptr)
      ∧ events'.length
        = if (p.epoll.wait order ready events.length).length = events.length
          then events.length * 2 else events.length := by
  obtain ⟨written, hwritten⟩ : ∃ written,
      written = p.epoll.wait order ready events.length := ⟨_, rfl⟩
  have hle : written.length ≤ events.length := by
    rw [hwritten]
    exact List.length_take_le ..
  have hlen : (written ++ events.drop written.length).length
      = events.length := by
    rw [List.length_append, List.length_drop]
    omega
  have hfound : ∀ event ∈ written,
      Finmap.lookup (m event.ptr).fd p.channels = some event.ptr := by
    intro event he
    rw [hwritten] at he
    obtain ⟨fd, -, hrep⟩ := EpollSet.mem_of_mem_wait he
    exact (h.report hrep).2.2.2.2
  unfold EPollPoller.poll
  simp only [← hwritten]
  split
  next =>
    refine ⟨growEvents (written ++ events.drop written.length) written.length,
      ?_, ?_⟩
    · unfold fillActiveChannels
      rw [require_bind (by rw [hlen]; exact hle), List.take_left',
        fillFrom_eq hfound]
      · rfl
      · rfl
    · unfold growEvents
      rw [hlen]
      split
      · rw [List.length_append, hlen, List.length_replicate]
        omega
      · exact hlen
  next hzero =>
    have hnil : written = [] := List.eq_nil_of_length_eq_zero (by omega)
    subst hnil
    refine ⟨[] ++ events.drop ([] : List EpollEvent).length, ?_, ?_⟩
    · rw [List.map_nil, List.append_nil]
      rfl
    · rw [hlen, if_neg (by rw [List.length_nil]; omega)]

end EPollPoller

-- ================================================================= runs

namespace EpollLoop

open EPollPoller

variable {fds : Nat ↪ Nat} {s s' : EpollLoop} {order : List Nat}
  {ready : Nat → BitVec 32} {c : Nat}

/-- The registrations are in order, and `events_` has doubled some number
of times. -/
structure Sound (fds : Nat ↪ Nat) (s : EpollLoop) : Prop where
  reg : RegInv fds s.poller s.mem
  size : ∃ k, s.events.length = kInitEventListSize * 2 ^ k

theorem sound_create : Sound fds (create fds) :=
  ⟨regInv_create, 0, List.length_replicate⟩

theorem Sound.init_le (h : Sound fds s) :
    kInitEventListSize ≤ s.events.length := by
  obtain ⟨k, hk⟩ := h.size
  rw [hk]
  exact Nat.le_mul_of_pos_right _ (Nat.two_pow_pos k)

theorem Sound.pos (h : Sound fds s) : 0 < s.events.length :=
  Nat.lt_of_lt_of_le (by decide) h.init_le

/-- How many descriptors the kernel has to report. -/
def reports (s : EpollLoop) (order : List Nat) (ready : Nat → BitVec 32) :
    Nat :=
  (order.dedup.filterMap (s.poller.epoll.report ready)).length

/-- What a poll makes of the channels: those that are active have
registered for what they are told, and they are all of those if there is
room for them. -/
structure Dispatches (s : EpollLoop) (order : List Nat)
    (ready : Nat → BitVec 32) (s' : EpollLoop) : Prop where
  nodup : s'.activeChannels.Nodup
  told : ∀ c ∈ s'.activeChannels, (s.mem c).index = kAdded
    ∧ (s.mem c).fd ∈ order ∧ found ready (s.mem c) ≠ 0#32
    ∧ s'.mem c = { s.mem c with revents := found ready (s.mem c) }
  others : ∀ c, c ∉ s'.activeChannels → s'.mem c = s.mem c
  count : s'.activeChannels.length = min s.events.length (s.reports order ready)
  all : s.reports order ready ≤ s.events.length → ∀ c,
    (s.mem c).index = kAdded → (s.mem c).fd ∈ order →
    found ready (s.mem c) ≠ 0#32 → c ∈ s'.activeChannels
  size : s'.events.length = if s'.activeChannels.length = s.events.length
    then s.events.length * 2 else s.events.length
  poller : s'.poller = s.poller

/-- A poll fails no assertion. -/
theorem Sound.poll (h : Sound fds s) (order : List Nat)
    (ready : Nat → BitVec 32) :
    ∃ s', s.step (.poll (some (order, ready))) = .ok s'
      ∧ Sound fds s' ∧ Dispatches s order ready s' := by
  obtain ⟨events', hpoll, hsize⟩ := h.reg.poll h.pos order ready []
  obtain ⟨written, hwritten⟩ : ∃ written,
      written = s.poller.epoll.wait order ready s.events.length := ⟨_, rfl⟩
  rw [← hwritten, List.nil_append] at hpoll
  rw [← hwritten] at hsize
  have hnodup := h.reg.wait_nodup order ready s.events.length
  rw [← hwritten] at hnodup
  have hrep : ∀ event ∈ written, ∃ fd ∈ order,
      s.poller.epoll.report ready fd = some event := by
    rw [hwritten]
    exact fun event he => EpollSet.mem_of_mem_wait he
  refine ⟨⟨s.poller, events', s.mem.deliver written,
    written.map EpollEvent.ptr⟩, ?_, ⟨?_, ?_⟩, ⟨hnodup, fun c hc => ?_,
    fun c hc => deliver_of_not_mem hc, ?_, fun hroom c hadded hfd hne => ?_,
    ?_, rfl⟩⟩
  · simp only [step, hpoll, ok_bind]
  · exact h.reg.same (sameInterest_deliver s.mem written)
  · obtain ⟨k, hk⟩ := h.size
    show ∃ k, events'.length = _
    rw [hsize, hk]
    split
    · exact ⟨k + 1, by rw [Nat.pow_succ, Nat.mul_assoc]⟩
    · exact ⟨k, rfl⟩
  · obtain ⟨event, he, rfl⟩ := List.mem_map.1 hc
    obtain ⟨fd, hfd, hevent⟩ := hrep event he
    obtain ⟨hptr, hadded, hbits, hne, -⟩ := h.reg.report hevent
    refine ⟨hadded, ?_, hne, ?_⟩
    · rw [h.reg.fd, hptr]
      exact hfd
    · rw [← hbits]
      exact deliver_of_mem hnodup he
  · show (written.map EpollEvent.ptr).length = _
    rw [List.length_map, hwritten]
    exact List.length_take
  · have hall : written
        = order.dedup.filterMap (s.poller.epoll.report ready) := by
      rw [hwritten]
      exact List.take_of_length_le hroom
    rw [h.reg.fd] at hfd
    refine List.mem_map.2 ⟨⟨found ready (s.mem c), c⟩, ?_, rfl⟩
    rw [hall]
    exact EpollSet.mem_reports.2
      ⟨fds c, hfd, h.reg.report_added hadded hne⟩
  · show events'.length = if (written.map EpollEvent.ptr).length = _
      then _ else _
    rw [List.length_map]
    exact hsize

theorem Sound.step (h : Sound fds s) {a : EpollAct}
    (hok : s.step a = .ok s') : Sound fds s' := by
  match a with
  | .call (.interest c op) =>
      obtain ⟨⟨p, m⟩, hup, hok⟩ := bind_ok_inv hok
      cases hok
      obtain ⟨p', m', hup', hreg, -⟩ :=
        h.reg.UpdateChannel c (op.apply (s.mem c)).events
      have hsame : s.poller.UpdateChannel (s.mem.interest c op) c
          = .ok (p', m') := hup'
      rw [hsame] at hup
      cases hup
      exact ⟨hreg, h.size⟩
  | .call (.remove c) =>
      obtain ⟨⟨p, m⟩, hrem, hok⟩ := bind_ok_inv hok
      cases hok
      cases hrem' : s.poller.removeChannel s.mem c with
      | error e =>
          rw [hrem'] at hrem
          cases hrem
      | ok r =>
          rw [hrem'] at hrem
          cases hrem
          exact ⟨(h.reg.removeChannel hrem').1, h.size⟩
  | .poll none =>
      cases hok
      exact ⟨h.reg, h.size⟩
  | .poll (some (order, ready)) =>
      obtain ⟨t, ht, hsound, -⟩ := h.poll order ready
      rw [ht] at hok
      cases hok
      exact hsound

theorem Sound.run {acts : List EpollAct} (h : Sound fds s)
    (hrun : run EpollLoop.step s acts = .ok s') : Sound fds s' :=
  run_inv_all (I := Sound fds) (fun _ _ _ h hok => h.step hok) h hrun

/-- After any calls and polls, a poll fails no assertion and dispatches
what the kernel reports. -/
theorem poll_dispatches (fds : Nat ↪ Nat) {acts : List EpollAct}
    (hrun : Machine.run step (create fds) acts = .ok s) (order : List Nat)
    (ready : Nat → BitVec 32) :
    ∃ s', s.step (.poll (some (order, ready))) = .ok s'
      ∧ Dispatches s order ready s'
      ∧ ∃ k, s'.events.length = kInitEventListSize * 2 ^ k := by
  obtain ⟨s', hok, hsound, hdisp⟩ :=
    (sound_create.run hrun).poll order ready
  exact ⟨s', hok, hdisp, hsound.size⟩

-- ============================================================== catching up

/-- Polls leave the registrations as they are. -/
theorem Dispatches.sameInterest (h : Dispatches s order ready s') :
    SameInterest s.mem s'.mem := by
  intro c
  by_cases hc : c ∈ s'.activeChannels
  · rw [(h.told c hc).2.2.2]
    exact ⟨rfl, rfl, rfl⟩
  · rw [h.others c hc]
    exact ⟨rfl, rfl, rfl⟩

/-- The kernel that goes through the descriptors in this order finds just
those of `R` with something to report. -/
def Finds (s : EpollLoop) (R : Finset Nat)
    (answer : List Nat × (Nat → BitVec 32)) : Prop :=
  ∀ fd, fd ∈ R
    ↔ fd ∈ answer.1 ∧ (s.poller.epoll.report answer.2 fd).isSome = true

theorem Finds.reports_eq {R : Finset Nat} (h : s.Finds R (order, ready)) :
    s.reports order ready = R.card := by
  have hR : R = (order.dedup.filter fun fd =>
      (s.poller.epoll.report ready fd).isSome).toFinset := by
    ext fd
    rw [List.mem_toFinset, List.mem_filter, List.mem_dedup]
    exact h fd
  unfold reports
  rw [hR, List.toFinset_card_of_nodup ((List.nodup_dedup order).filter _),
    List.length_filterMap_eq_countP, List.countP_eq_length_filter]

/-- Another poller of the same registrations finds the same. -/
theorem Finds.congr {R : Finset Nat} {answer : List Nat × (Nat → BitVec 32)}
    (h : s.Finds R answer) (hpoller : s'.poller = s.poller) :
    s'.Finds R answer := by
  unfold Finds
  rw [hpoller]
  exact h

/-- With the same descriptors ready, polls make the array large enough for
all of them, or twice as large each. -/
theorem Sound.polls {R : Finset Nat} :
    ∀ (answers : List (List Nat × (Nat → BitVec 32))) {s : EpollLoop},
      Sound fds s → (∀ a ∈ answers, s.Finds R a) →
    ∃ s', Machine.run EpollLoop.step s
        (answers.map fun a => .poll (some a)) = .ok s'
      ∧ Sound fds s' ∧ s'.poller = s.poller ∧ SameInterest s.mem s'.mem
      ∧ (R.card ≤ s'.events.length
        ∨ s'.events.length = s.events.length * 2 ^ answers.length) := by
  intro answers
  induction answers with
  | nil =>
      intro s h _
      exact ⟨s, rfl, h, rfl, fun c => ⟨rfl, rfl, rfl⟩,
        .inr (Nat.mul_one _).symm⟩
  | cons a answers ih =>
      intro s h hready
      obtain ⟨order, ready⟩ := a
      obtain ⟨s₁, hok, h₁, hdisp⟩ := h.poll order ready
      obtain ⟨s', hrun, h', hpoller, hmem, hgrown⟩ := ih h₁ fun a ha =>
        (hready a (List.mem_cons_of_mem _ ha)).congr hdisp.poller
      have hreports := (hready _ List.mem_cons_self).reports_eq
      refine ⟨s', ?_, h', hpoller.trans hdisp.poller,
        hdisp.sameInterest.trans hmem, ?_⟩
      · rw [List.map_cons, run_cons_ok _ hok]
        exact hrun
      · have hsize := hdisp.size
        rw [hdisp.count, hreports] at hsize
        have hpow : 1 ≤ 2 ^ answers.length := Nat.one_le_two_pow
        rcases Nat.lt_or_ge R.card s.events.length with hroom | hfull
        · -- the array was not filled, and is large enough already
          rw [if_neg (by omega)] at hsize
          refine .inl ?_
          rcases hgrown with hgrown | hgrown
          · exact hgrown
          · rw [hgrown, hsize]
            exact (Nat.le_of_lt hroom).trans (Nat.le_mul_of_pos_right _ hpow)
        · rw [if_pos (by omega)] at hsize
          rw [hsize, Nat.mul_assoc, ← Nat.pow_succ'] at hgrown
          exact hgrown

/-- As long as the same descriptors are ready, with whatever bits and in
whatever order each poll's kernel goes through them, no channel waits for
more than the polls it takes the array to grow to their number. -/
theorem catch_up (fds : Nat ↪ Nat) {acts : List EpollAct}
    (hrun : Machine.run step (create fds) acts = .ok s) (R : Finset Nat)
    (answers : List (List Nat × (Nat → BitVec 32)))
    (last : List Nat × (Nat → BitVec 32))
    (hready : ∀ a ∈ answers ++ [last], s.Finds R a)
    (hfew : R.card ≤ kInitEventListSize * 2 ^ answers.length) :
    ∃ s', Machine.run step s
        ((answers ++ [last]).map fun a => .poll (some a)) = .ok s'
      ∧ s'.activeChannels.Nodup
      ∧ (∀ c, c ∈ s'.activeChannels ↔ (s.mem c).fd ∈ R)
      ∧ ∀ c ∈ s'.activeChannels,
        (s'.mem c).revents = found last.2 (s.mem c) := by
  have hsound := sound_create.run hrun
  obtain ⟨s₁, hrun₁, h₁, hpoller, hmem, hgrown⟩ := hsound.polls answers
    fun a ha => hready a (List.mem_append_left _ ha)
  obtain ⟨order, ready⟩ := last
  have hlast : s₁.Finds R (order, ready) :=
    (hready _ (List.mem_append_right _ (List.mem_singleton.2 rfl))).congr hpoller
  obtain ⟨s', hok, -, hdisp⟩ := h₁.poll order ready
  have hroom : s₁.reports order ready ≤ s₁.events.length := by
    rw [hlast.reports_eq]
    rcases hgrown with hgrown | hgrown
    · exact hgrown
    · rw [hgrown]
      exact hfew.trans (Nat.mul_le_mul_right _ hsound.init_le)
  have hfound : ∀ c, found ready (s₁.mem c) = found ready (s.mem c) := by
    intro c
    obtain ⟨hfd, hevents, -⟩ := hmem c
    unfold found
    rw [hfd, hevents]
  refine ⟨s', ?_, hdisp.nodup, fun c => ⟨fun hc => ?_, fun hc => ?_⟩,
    fun c hc => ?_⟩
  · rw [List.map_append, run_append _ hrun₁]
    exact run_cons_ok [] hok
  · obtain ⟨hadded, hfd, hne, -⟩ := hdisp.told c hc
    rw [(hmem c).1] at hfd
    refine (hlast _).2 ⟨hfd, ?_⟩
    rw [hsound.reg.fd, h₁.reg.report_added hadded hne]
    rfl
  · obtain ⟨hfd, hsome⟩ := (hlast _).1 hc
    obtain ⟨event, hevent⟩ := Option.isSome_iff_exists.1 hsome
    obtain ⟨hptr, hadded, -, hne, -⟩ := h₁.reg.report hevent
    rw [hsound.reg.fd] at hptr
    obtain rfl := fds.injective hptr
    refine hdisp.all hroom event.ptr hadded ?_ hne
    rw [(hmem event.ptr).1]
    exact hfd
  · rw [(hdisp.told c hc).2.2.2]
    exact hfound c

/-- Seventeen channels read, and all of them have something to read. -/
def crowd : List EpollAct :=
  (List.range 17).map fun c => .call (.interest c .enableReading)

theorem poll_dispatches_crowd : ∃ s s',
    Machine.run step (create (.refl Nat)) crowd = .ok s
      ∧ s.step (.poll (some (List.range 20, fun _ => POLLIN))) = .ok s'
      ∧ s'.activeChannels.length = 16
      ∧ Dispatches s (List.range 20) (fun _ => POLLIN) s'
      ∧ ∃ k, s'.events.length = kInitEventListSize * 2 ^ k := by
  obtain ⟨s, hs, hreports, hlen⟩ :
      Holds (Machine.run step (create (.refl Nat)) crowd) fun s =>
        s.reports (List.range 20) (fun _ => POLLIN) = 17
        ∧ s.events.length = 16 := by
    decide +kernel
  obtain ⟨s', hok, hdisp, hsize⟩ :=
    poll_dispatches (.refl Nat) hs (List.range 20) fun _ => POLLIN
  refine ⟨s, s', hs, hok, ?_, hdisp, hsize⟩
  rw [hdisp.count, hreports, hlen]
  rfl

/-- The second poll's kernel goes through them the other way round. -/
theorem catch_up_crowd : ∃ s s',
    Machine.run step (create (.refl Nat)) crowd = .ok s
      ∧ Machine.run step s [.poll (some (List.range 20, fun _ => POLLIN)),
        .poll (some ((List.range 20).reverse, fun _ => POLLIN))] = .ok s'
      ∧ ∀ c < 17, c ∈ s'.activeChannels := by
  obtain ⟨s, hs, hfd, hfinds⟩ :
      Holds (Machine.run step (create (.refl Nat)) crowd) fun s =>
        (∀ c < 17, (s.mem c).fd = c)
        ∧ ∀ fd < 20, fd ∈ Finset.range 17
          ↔ (s.poller.epoll.report (fun _ => POLLIN) fd).isSome = true := by
    decide +kernel
  have hready : ∀ order : List Nat, (∀ fd, fd ∈ order ↔ fd < 20) →
      s.Finds (Finset.range 17) (order, fun _ => POLLIN) := by
    intro order horder fd
    rw [horder]
    constructor
    · intro h
      have hlt : fd < 20 := by
        rw [Finset.mem_range] at h
        omega
      exact ⟨hlt, (hfinds fd hlt).1 h⟩
    · intro h
      exact (hfinds fd h.1).2 h.2
  obtain ⟨s', hrun, -, hall, -⟩ := catch_up (.refl Nat) hs (Finset.range 17)
    [(List.range 20, fun _ => POLLIN)]
    ((List.range 20).reverse, fun _ => POLLIN)
    (fun a ha => by
      rcases List.mem_cons.1 ha with rfl | ha
      · exact hready _ fun fd => List.mem_range
      · rw [List.mem_singleton.1 ha]
        exact hready _ fun fd => by rw [List.mem_reverse, List.mem_range])
    (by rw [Finset.card_range]; decide)
  refine ⟨s, s', hs, hrun, fun c hc => (hall c).2 ?_⟩
  rw [hfd c hc]
  exact Finset.mem_range.2 hc

end EpollLoop

end Cobra
