/-
What either poller does for one channel, whatever the others do.

`Ready` is a channel before its first update, `Watches` one that is
registered. `Keeps` is what the calls for other channels leave a channel
with.
-/
import Cobra.Proofs.EPollPoller
import Cobra.Proofs.PollPoller

namespace Cobra

open Machine ChannelMem

/-- An interest is nothing `EPollPoller` has to know. -/
theorem EPollPoller.Registered.setEvents {p : EPollPoller} {m : ChannelMem}
    {c : Nat} (h : p.Registered m c) (c' : Nat) (events : BitVec 32) :
    p.Registered (m.setEvents c' events) c := by
  obtain ⟨hfd, hidx⟩ := setEvents_frame m c' c events
  refine ⟨?_, ?_, ?_⟩
  · rw [hfd]
    exact h.known
  · rw [hidx]
    exact h.index
  · rw [hfd, hidx]
    exact h.watched

theorem EPollPoller.Elsewhere.frame {p p' : EPollPoller} {m m' : ChannelMem}
    {c : Nat} (h : p.Elsewhere m c p' m') (c' : Nat) :
    (m' c').fd = (m c').fd ∧ (m' c').events = (m c').events := by
  obtain ⟨index, hm⟩ := h.mem
  rw [hm]
  exact setIndex_frame ..

namespace Poller

variable {p : Poller} {m : ChannelMem} {c c' : Nat} {r : Poller × ChannelMem}

/-- What holds between the calls. -/
def Inv : Poller → ChannelMem → Prop
  | .epoll _, _ => True
  | .poll p, m => p.TableInv m

/-- The channel is new. -/
def Ready (p : Poller) (m : ChannelMem) (c : Nat) : Prop :=
  p.Inv m ∧ (m c).index = -1

/-- The channel is registered. -/
def Watches : Poller → ChannelMem → Nat → Prop
  | .epoll p, m, c => p.Registered m c
  | .poll p, m, c => p.TableInv m ∧ p.Registered m c ∧ p.Shown m c

/-- The poller does not know the descriptor. -/
def Unknown : Poller → Nat → Prop
  | .epoll p, fd => p.Unknown fd
  | .poll p, fd => p.Unknown fd

theorem ready_newDefaultPoller (usePoll : Bool) (h : (m c).index = -1) :
    Ready (newDefaultPoller usePoll) m c := by
  cases usePoll with
  | false => exact ⟨trivial, h⟩
  | true =>
      refine ⟨⟨fun fd c' hc => ?_, ?_⟩, h⟩
      · cases hc
      · exact DenseTable.indexes_nil

/-- A registered channel can be updated. -/
theorem UpdateChannel_watches (h : Watches p m c) (events : BitVec 32) :
    Holds (p.UpdateChannel (m.setEvents c events) c) fun r =>
      Watches r.1 r.2 c ∧ (r.2 c).fd = (m c).fd ∧ (r.2 c).events = events := by
  have hself := setEvents_self m c events
  cases p with
  | epoll p =>
      obtain ⟨⟨p', m'⟩, hok, hreg⟩ :=
        EPollPoller.UpdateChannel_registered
          (EPollPoller.Registered.setEvents h c events)
      obtain ⟨hfd, hevents⟩ :=
        (EPollPoller.UpdateChannel_elsewhere hok).frame c
      rw [hself] at hfd hevents
      refine ⟨(.epoll p', m'), ?_, hreg, hfd, hevents⟩
      simp only [UpdateChannel, hok, ok_bind]
  | poll p =>
      obtain ⟨hinv, hreg, -⟩ := h
      have hinv' := hinv.setEvents c events
      have hreg' : p.Registered (m.setEvents c events) c := by
        unfold PollPoller.Registered
        rw [hself]
        exact hreg
      obtain ⟨⟨p', m'⟩, hok, hreg₁, hshown⟩ :=
        PollPoller.UpdateChannel_registered hinv' hreg'
      obtain ⟨hfd, hevents⟩ :=
        (PollPoller.UpdateChannel_elsewhere hinv' hok).frame c
      rw [hself] at hfd hevents
      refine ⟨(.poll p', m'), ?_,
        ⟨PollPoller.UpdateChannel_tableInv hinv' hok, hreg₁, hshown⟩, hfd,
        hevents⟩
      simp only [UpdateChannel, hok, ok_bind]

/-- A new channel is registered by its first update, which has to ask for
events. -/
theorem UpdateChannel_ready (h : Ready p m c) {events : BitVec 32}
    (hsome : events ≠ kNoneEvent)
    (hok : p.UpdateChannel (m.setEvents c events) c = .ok r) :
    Watches r.1 r.2 c ∧ (r.2 c).fd = (m c).fd ∧ (r.2 c).events = events := by
  have hself := setEvents_self m c events
  cases p with
  | epoll p =>
      obtain ⟨⟨p', m'⟩, hupd, hok⟩ := bind_ok_inv hok
      cases hok
      obtain ⟨hfd, hevents⟩ :=
        (EPollPoller.UpdateChannel_elsewhere hupd).frame c
      rw [hself] at hfd hevents
      refine ⟨EPollPoller.UpdateChannel_new ?_ hupd, hfd, hevents⟩
      rw [hself]
      exact h.2
  | poll p =>
      obtain ⟨⟨p', m'⟩, hupd, hok⟩ := bind_ok_inv hok
      cases hok
      obtain ⟨hinv, hidx⟩ := h
      unfold Inv at hinv
      have hinv' := hinv.setEvents c events
      obtain ⟨hfd, hevents⟩ :=
        (PollPoller.UpdateChannel_elsewhere hinv' hupd).frame c
      rw [hself] at hfd hevents
      refine ⟨⟨PollPoller.UpdateChannel_tableInv hinv' hupd,
        PollPoller.UpdateChannel_new ?_ ?_ hupd⟩, hfd, hevents⟩
      · rw [hself]
        show (m c).index < 0
        omega
      · rw [hself]
        exact beq_eq_false_iff_ne.2 hsome

/-- A registered channel with no interest can be removed, and is then
forgotten. -/
theorem removeChannel_watches (h : Watches p m c)
    (hnone : (m c).isNoneEvent = true) :
    Holds (p.removeChannel m c) fun r => Unknown r.1 (m c).fd := by
  cases p with
  | epoll p =>
      obtain ⟨⟨p', m'⟩, hok, hunknown⟩ :=
        EPollPoller.removeChannel_registered h hnone
      refine ⟨(.epoll p', m'), ?_, hunknown⟩
      simp only [removeChannel, hok, ok_bind]
  | poll p =>
      obtain ⟨hinv, hreg, hshown⟩ := h
      obtain ⟨⟨p', m'⟩, hok, hunknown⟩ :=
        PollPoller.removeChannel_registered hinv hreg hshown hnone
      refine ⟨(.poll p', m'), ?_, hunknown⟩
      simp only [removeChannel, hok, ok_bind]

-- ======================================================= other channels

theorem Watches.inv (h : Watches p m c) : p.Inv m := by
  cases p with
  | epoll p => trivial
  | poll p => exact h.1

/-- A call for another channel leaves `c` as it was. -/
structure Keeps (p : Poller) (m : ChannelMem) (c : Nat)
    (r : Poller × ChannelMem) : Prop where
  inv : r.1.Inv r.2
  ready : Ready p m c → Ready r.1 r.2 c
  watches : Watches p m c → Watches r.1 r.2 c
  fd : (r.2 c).fd = (m c).fd
  events : (r.2 c).events = (m c).events

theorem Keeps.trans {r' : Poller × ChannelMem} (h : Keeps p m c r)
    (h' : Keeps r.1 r.2 c r') : Keeps p m c r' where
  inv := h'.inv
  ready := fun hr => h'.ready (h.ready hr)
  watches := fun hw => h'.watches (h.watches hw)
  fd := h'.fd.trans h.fd
  events := h'.events.trans h.events

theorem keeps_epoll {p p' : EPollPoller} {m' : ChannelMem}
    (h : p.Elsewhere m c' p' m') (hne : c ≠ c') :
    Keeps (.epoll p) m c (.epoll p', m') := by
  obtain ⟨hfd, hevents⟩ := h.frame c
  refine ⟨trivial, fun hready => ⟨trivial, ?_⟩,
    fun hreg => h.registered hreg hne, hfd, hevents⟩
  obtain ⟨index, hm⟩ := h.mem
  show (m' c).index = -1
  rw [hm, setIndex_of_ne index hne]
  exact hready.2

theorem keeps_poll {p p' : PollPoller} {m' : ChannelMem}
    (h : p.Elsewhere m c' p' m') (hinv : p'.TableInv m') (hne : c ≠ c') :
    Keeps (.poll p) m c (.poll p', m') := by
  obtain ⟨hfd, hevents⟩ := h.frame c
  refine ⟨hinv, fun hready => ?_, fun hwatch => ?_, hfd, hevents⟩
  · obtain ⟨-, hidx⟩ := hready
    exact ⟨hinv, (h.fresh c (by omega) hne).trans hidx⟩
  · obtain ⟨-, hreg, hshown⟩ := hwatch
    exact ⟨hinv, h.registered hreg hne, h.shown hreg hshown hne⟩

/-- A changed interest of another channel. -/
theorem setEvents_keeps (hinv : p.Inv m) (events : BitVec 32) (hne : c ≠ c') :
    Keeps p m c (p, m.setEvents c' events) := by
  have hsame : m.setEvents c' events c = m c := setEvents_of_ne events hne
  cases p with
  | epoll p =>
      refine ⟨trivial, fun hready => ⟨trivial, ?_⟩, fun hreg => ?_,
        congrArg Channel.fd hsame, congrArg Channel.events hsame⟩
      · exact (congrArg Channel.index hsame).trans hready.2
      · exact EPollPoller.Registered.setEvents hreg c' events
  | poll p =>
      have hinv' := PollPoller.TableInv.setEvents hinv c' events
      refine ⟨hinv', fun hready => ⟨hinv', ?_⟩, fun hwatch => ⟨hinv', ?_⟩,
        congrArg Channel.fd hsame, congrArg Channel.events hsame⟩
      · exact (congrArg Channel.index hsame).trans hready.2
      · obtain ⟨-, hreg, hshown⟩ := hwatch
        show p.Registered (m.setEvents c' events) c
          ∧ p.Shown (m.setEvents c' events) c
        unfold PollPoller.Registered PollPoller.Shown
        rw [hsame]
        exact ⟨hreg, hshown⟩

theorem UpdateChannel_keeps (hinv : p.Inv m)
    (hok : p.UpdateChannel m c' = .ok r) (hne : c ≠ c') : Keeps p m c r := by
  cases p with
  | epoll p =>
      obtain ⟨⟨p', m'⟩, hupd, hok⟩ := bind_ok_inv hok
      cases hok
      exact keeps_epoll (EPollPoller.UpdateChannel_elsewhere hupd) hne
  | poll p =>
      obtain ⟨⟨p', m'⟩, hupd, hok⟩ := bind_ok_inv hok
      cases hok
      exact keeps_poll (PollPoller.UpdateChannel_elsewhere hinv hupd)
        (PollPoller.UpdateChannel_tableInv hinv hupd) hne

theorem removeChannel_keeps (hinv : p.Inv m)
    (hok : p.removeChannel m c' = .ok r) (hne : c ≠ c') : Keeps p m c r := by
  cases p with
  | epoll p =>
      obtain ⟨⟨p', m'⟩, hrem, hok⟩ := bind_ok_inv hok
      cases hok
      exact keeps_epoll (EPollPoller.removeChannel_elsewhere hrem) hne
  | poll p =>
      obtain ⟨⟨p', m'⟩, hrem, hok⟩ := bind_ok_inv hok
      cases hok
      exact keeps_poll (PollPoller.removeChannel_elsewhere hinv hrem)
        (PollPoller.removeChannel_tableInv hinv hrem) hne

end Poller

end Cobra
