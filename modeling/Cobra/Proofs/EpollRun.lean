/-
`EPollPoller` over any sequence of calls on any number of channels: the
map, the three values of `index_` and the kernel's epoll set stay in
step, and every `epoll_ctl` fits the kernel's set.

# One channel

A channel is `Standing`: registered, or new and unknown. An update of a
standing channel always succeeds and registers it (`UpdateChannel_ok`),
whatever its interest; what it issued to the kernel is read off the
channel (`UpdateChannel_issued`). A removal succeeds for a registered
channel without interest and makes it new again.

# All of them

Everything is kept by descriptor and the descriptors are distinct, so a
call for one channel leaves the others standing. `RegInv` is that, and
`registration_run` reads it back after every run.
-/
import Cobra.ChannelCalls
import Cobra.Proofs.Poller

namespace Cobra

open Machine ChannelMem

namespace EPollPoller

variable {p p' : EPollPoller} {m m' : ChannelMem} {c c' : Nat}

-- ========================================================= one channel

/-- The channel is registered, or new and unknown. -/
def Standing (p : EPollPoller) (m : ChannelMem) (c : Nat) : Prop :=
  Registered p m c ∨ ((m c).index = kNew ∧ Unknown p (m c).fd)

theorem Standing.setEvents (h : Standing p m c) (c' : Nat)
    (events : BitVec 32) : Standing p (m.setEvents c' events) c := by
  obtain ⟨hfd, hidx⟩ := setEvents_frame m c' c events
  rcases h with h | ⟨hnew, hunk⟩
  · exact .inl (h.setEvents c' events)
  · refine .inr ⟨hidx.trans hnew, ?_⟩
    rw [hfd]
    exact hunk

/-- An update of a standing channel succeeds and registers it. -/
theorem UpdateChannel_ok (h : Standing p m c) :
    ∃ p' m', p.UpdateChannel m c = .ok (p', m') ∧ Registered p' m' c := by
  rcases h with h | ⟨hnew, hchan, hepoll⟩
  · obtain ⟨⟨p', m'⟩, hok, hreg⟩ := UpdateChannel_registered h
    exact ⟨p', m', hok, hreg⟩
  · obtain ⟨⟨p', m'⟩, hadd⟩ := addChannel_holds
      (p := { p with channels := Finmap.insert (m c).fd c p.channels }) hepoll
    have hok : p.UpdateChannel m c = .ok (p', m') := by
      unfold UpdateChannel
      rw [if_pos hnew, require_bind hchan]
      exact hadd
    exact ⟨p', m', hok, UpdateChannel_new hnew hok⟩

/-- A successful `update`: the kernel did it, or refused a removal. -/
theorem update_cases {op : EpollOp} (h : p.update op m c = .ok p') :
    epollCtl p.epoll op (m c).fd (m c).events c = some p'.epoll
      ∨ (op = .EPOLL_CTL_DEL ∧ p' = p) := by
  unfold update at h
  split at h
  next set hset =>
    cases h
    exact .inl hset
  next =>
    split at h
    next hop =>
      cases h
      exact .inr ⟨hop, rfl⟩
    next => cases h

/-- A call has issued `op` to the kernel, on the set as it was, for the
channel's descriptor and interest. -/
def Issued (p : EPollPoller) (m : ChannelMem) (c : Nat) (op : EpollOp)
    (p' : EPollPoller) : Prop :=
  ∃ (q : EPollPoller) (m₁ : ChannelMem), q.epoll = p.epoll
    ∧ (m₁ c).fd = (m c).fd ∧ (m₁ c).events = (m c).events
    ∧ q.update op m₁ c = .ok p'

theorem addChannel_issued {q : EPollPoller} (hq : q.epoll = p.epoll)
    (h : q.addChannel m c = .ok (p', m')) :
    Issued p m c .EPOLL_CTL_ADD p' ∧ (m' c).index = kAdded := by
  unfold addChannel at h
  obtain ⟨p₁, hupd, h⟩ := bind_ok_inv h
  cases h
  obtain ⟨hfd, hevents⟩ := setIndex_frame m c c kAdded
  refine ⟨⟨q, m.setIndex c kAdded, hq, hfd, hevents, hupd⟩, ?_⟩
  rw [setIndex_self]

/-- What an update issues is `updateOp`. -/
theorem UpdateChannel_issued (h : p.UpdateChannel m c = .ok (p', m')) :
    Issued p m c (updateOp (m c)) p'
      ∧ (m' c).index
        = if updateOp (m c) = .EPOLL_CTL_DEL then kDeleted else kAdded := by
  unfold UpdateChannel at h
  split at h
  next hnew =>
    have hop : updateOp (m c) = .EPOLL_CTL_ADD := if_pos (.inl hnew)
    obtain ⟨-, -, h⟩ := bind_ok_inv h
    rw [hop]
    refine addChannel_issued ?_ h
    rfl
  next hnew =>
    split at h
    next hdel =>
      obtain ⟨-, -, h⟩ := bind_ok_inv h
      obtain ⟨-, -, h⟩ := bind_ok_inv h
      have hop : updateOp (m c) = .EPOLL_CTL_ADD := if_pos (.inr hdel)
      rw [hop]
      exact addChannel_issued rfl h
    next hdel =>
      obtain ⟨-, -, h⟩ := bind_ok_inv h
      obtain ⟨-, -, h⟩ := bind_ok_inv h
      obtain ⟨u, hidx, h⟩ := bind_ok_inv h
      have hnot : ¬ ((m c).index = kNew ∨ (m c).index = kDeleted) := by
        intro h'
        exact h'.elim hnew hdel
      unfold modChannel at h
      split at h
      next hnone =>
        have hop : updateOp (m c) = .EPOLL_CTL_DEL := by
          unfold updateOp
          rw [if_neg hnot, if_pos hnone]
        obtain ⟨p₁, hupd, h⟩ := bind_ok_inv h
        cases h
        rw [hop]
        refine ⟨⟨p, m, rfl, rfl, rfl, hupd⟩, ?_⟩
        rw [setIndex_self]
        rfl
      next hnone =>
        have hop : updateOp (m c) = .EPOLL_CTL_MOD := by
          unfold updateOp
          rw [if_neg hnot, if_neg hnone]
        obtain ⟨p₁, hupd, h⟩ := bind_ok_inv h
        cases h
        rw [hop]
        exact ⟨⟨p, m, rfl, rfl, rfl, hupd⟩, require_inv hidx⟩

/-- A channel that is added after an update is in the kernel's set, with
its interest and its address. -/
theorem UpdateChannel_shows (h : p.UpdateChannel m c = .ok (p', m'))
    (hadded : (m' c).index = kAdded) :
    Finmap.lookup (m c).fd p'.epoll = some ((m c).events, c) := by
  obtain ⟨⟨q, m₁, -, hfd, hevents, hupd⟩, hidx⟩ := UpdateChannel_issued h
  have hop : updateOp (m c) ≠ .EPOLL_CTL_DEL := by
    intro hop
    rw [hadded, if_pos hop] at hidx
    revert hidx
    decide
  rcases update_cases hupd with hctl | ⟨hdel, -⟩
  · rw [hfd, hevents] at hctl
    unfold epollCtl at hctl
    split at hctl
    · rw [← Option.some.inj hctl]
      exact Finmap.lookup_insert _
    · rw [← Option.some.inj hctl]
      exact Finmap.lookup_insert _
    · contradiction
    · cases hctl
  · exact absurd hdel hop

/-- What a removal needs, and what it makes of the channel. -/
theorem removeChannel_inv (h : p.removeChannel m c = .ok (p', m')) :
    Finmap.lookup (m c).fd p.channels = some c ∧ (m c).isNoneEvent = true
      ∧ m' = m.setIndex c kNew := by
  unfold removeChannel at h
  obtain ⟨-, -, h⟩ := bind_ok_inv h
  obtain ⟨u, hsame, h⟩ := bind_ok_inv h
  obtain ⟨u', hnone, h⟩ := bind_ok_inv h
  obtain ⟨-, -, h⟩ := bind_ok_inv h
  refine ⟨require_inv hsame, require_inv hnone, ?_⟩
  unfold dropChannel at h
  split at h
  · obtain ⟨p₁, -, h⟩ := bind_ok_inv h
    cases h
    rfl
  · cases h
    rfl

/-- What a removal issues is `removeOp`. -/
theorem removeChannel_issued (h : p.removeChannel m c = .ok (p', m')) :
    match removeOp (m c) with
    | some op => Issued p m c op p'
    | none => p'.epoll = p.epoll := by
  unfold removeChannel at h
  obtain ⟨-, -, h⟩ := bind_ok_inv h
  obtain ⟨-, -, h⟩ := bind_ok_inv h
  obtain ⟨-, -, h⟩ := bind_ok_inv h
  obtain ⟨-, -, h⟩ := bind_ok_inv h
  unfold dropChannel at h
  split at h
  next hidx =>
    obtain ⟨p₁, hupd, h⟩ := bind_ok_inv h
    cases h
    rw [removeOp, if_pos hidx]
    exact ⟨{ p with channels := Finmap.erase (m c).fd p.channels }, m,
      rfl, rfl, rfl, hupd⟩
  next hidx =>
    cases h
    rw [removeOp, if_neg hidx]

/-- A removal never runs into the fatal branch of `update`. -/
theorem removeChannel_not_fatal : p.removeChannel m c ≠ .error .epollFatal := by
  intro h
  unfold removeChannel at h
  rcases bind_error_inv h with h | ⟨-, -, h⟩
  · cases require_error_inv h
  rcases bind_error_inv h with h | ⟨-, -, h⟩
  · cases require_error_inv h
  rcases bind_error_inv h with h | ⟨-, -, h⟩
  · cases require_error_inv h
  rcases bind_error_inv h with h | ⟨-, -, h⟩
  · cases require_error_inv h
  unfold dropChannel at h
  split at h
  · rcases bind_error_inv h with hupd | ⟨q, -, hq⟩
    · unfold update at hupd
      split at hupd
      · cases hupd
      · rw [if_pos rfl] at hupd
        cases hupd
    · cases hq
  · cases h

/-- After a removal the channel is new again, and unknown. -/
theorem removeChannel_new (h : Standing p m c)
    (hok : p.removeChannel m c = .ok (p', m')) :
    Registered p m c ∧ (m' c).index = kNew ∧ Unknown p' (m' c).fd := by
  obtain ⟨hknown, hnone, hm⟩ := removeChannel_inv hok
  have hreg : Registered p m c := by
    rcases h with h | ⟨-, hchan, -⟩
    · exact h
    · rw [hchan] at hknown
      cases hknown
  obtain ⟨⟨p₁, m₁⟩, hok', hunk⟩ := removeChannel_registered hreg hnone
  rw [hok] at hok'
  cases hok'
  refine ⟨hreg, ?_, ?_⟩
  · rw [hm, setIndex_self]
  · rw [hm, setIndex_self]
    exact hunk

-- ======================================================== all channels

/-- The channels have the descriptors `fds`, all of them are standing,
those that are added are in the kernel's set as they should be, and
nothing else is in the map or in the set. -/
structure RegInv (fds : Nat ↪ Nat) (p : EPollPoller) (m : ChannelMem) :
    Prop where
  fd : ∀ c, (m c).fd = fds c
  standing : ∀ c, Standing p m c
  shows : ∀ c, (m c).index = kAdded →
    Finmap.lookup (m c).fd p.epoll = some ((m c).events, c)
  channels : ∀ fd, Finmap.lookup fd p.channels ≠ none → ∃ c, (m c).fd = fd
  epoll : ∀ fd, Finmap.lookup fd p.epoll ≠ none → ∃ c, (m c).fd = fd

variable {fds : Nat ↪ Nat}

theorem regInv_create :
    RegInv fds ⟨(∅ : Finmap _), (∅ : Finmap _)⟩ (ChannelMem.create fds) where
  fd := fun _ => rfl
  standing := fun _ => .inr ⟨rfl, rfl, rfl⟩
  shows := by
    intro c h
    have hne : kNew ≠ kAdded := by decide
    exact absurd h hne
  channels := fun _ h => absurd rfl h
  epoll := fun _ h => absurd rfl h

/-- A call for one channel, with what it does to that channel: the
others are left as they are. -/
theorem RegInv.call (h : RegInv fds p m) {events : BitVec 32}
    (he : Elsewhere p (m.setEvents c events) c p' m')
    (hstand : Standing p' m' c)
    (hshow : (m' c).index = kAdded →
      Finmap.lookup (m' c).fd p'.epoll = some ((m' c).events, c)) :
    RegInv fds p' m' := by
  have hfd : ∀ c', (m' c').fd = (m c').fd := by
    intro c'
    rw [(he.frame c').1]
    exact (setEvents_frame m c c' events).1
  have hself : (m.setEvents c events c).fd = (m c).fd :=
    (setEvents_frame m c c events).1
  have hsame : ∀ c', c' ≠ c → m' c' = m c' := by
    intro c' hne
    obtain ⟨index, hm⟩ := he.mem
    rw [hm, setIndex_of_ne index hne, setEvents_of_ne events hne]
  have hother : ∀ c', c' ≠ c → (m c').fd ≠ (m.setEvents c events c).fd := by
    intro c' hne heq
    rw [hself, h.fd, h.fd] at heq
    exact hne (fds.injective heq)
  refine ⟨fun c' => (hfd c').trans (h.fd c'), fun c' => ?_, fun c' => ?_,
    fun fd hne => ?_, fun fd hne => ?_⟩
  · by_cases hc : c' = c
    · rw [hc]
      exact hstand
    · unfold Standing Unknown
      rw [hsame c' hc, he.channels _ (hother c' hc), he.epoll _ (hother c' hc)]
      rcases h.standing c' with hreg | hnew
      · refine .inl ⟨?_, ?_, ?_⟩
        · rw [hsame c' hc, he.channels _ (hother c' hc)]
          exact hreg.known
        · rw [hsame c' hc]
          exact hreg.index
        · rw [hsame c' hc, he.epoll _ (hother c' hc)]
          exact hreg.watched
      · exact .inr hnew
  · by_cases hc : c' = c
    · rw [hc]
      exact hshow
    · rw [hsame c' hc, he.epoll _ (hother c' hc)]
      exact h.shows c'
  · by_cases hc : fd = (m c).fd
    · exact ⟨c, (hfd c).trans hc.symm⟩
    · rw [he.channels fd (by rw [hself]; exact hc)] at hne
      obtain ⟨c', hc'⟩ := h.channels fd hne
      exact ⟨c', (hfd c').trans hc'⟩
  · by_cases hc : fd = (m c).fd
    · exact ⟨c, (hfd c).trans hc.symm⟩
    · rw [he.epoll fd (by rw [hself]; exact hc)] at hne
      obtain ⟨c', hc'⟩ := h.epoll fd hne
      exact ⟨c', (hfd c').trans hc'⟩

/-- An update always succeeds, and keeps everything in step. -/
theorem RegInv.UpdateChannel (h : RegInv fds p m) (c : Nat)
    (events : BitVec 32) :
    ∃ p' m', p.UpdateChannel (m.setEvents c events) c = .ok (p', m')
      ∧ RegInv fds p' m' ∧ Registered p' m' c := by
  obtain ⟨p', m', hok, hreg⟩ :=
    UpdateChannel_ok ((h.standing c).setEvents c events)
  have he := UpdateChannel_elsewhere hok
  refine ⟨p', m', hok, h.call he (.inl hreg) (fun hadded => ?_), hreg⟩
  obtain ⟨hfd, hevents⟩ := he.frame c
  rw [hfd, hevents]
  exact UpdateChannel_shows hok hadded

/-- A removal that succeeds keeps everything in step. -/
theorem RegInv.removeChannel (h : RegInv fds p m)
    (hok : p.removeChannel m c = .ok (p', m')) :
    RegInv fds p' m' ∧ Registered p m c ∧ (m' c).index = kNew := by
  obtain ⟨hreg, hnew, hunk⟩ := removeChannel_new (h.standing c) hok
  have hmem : m.setEvents c (m c).events = m := Function.update_eq_self c m
  have he : Elsewhere p (m.setEvents c (m c).events) c p' m' := by
    rw [hmem]
    exact removeChannel_elsewhere hok
  refine ⟨h.call he (.inr ⟨hnew, hunk⟩) (fun hadded => ?_), hreg, hnew⟩
  have hne : kNew ≠ kAdded := by decide
  exact absurd (hnew.symm.trans hadded) hne

-- ============================================================ legality

/-- The operation of an update fits what the kernel knows. -/
theorem Standing.updateOp_legal (h : Standing p m c) :
    EpollCtl.legal ⟨updateOp (m c), (m c).fd,
      (Finmap.lookup (m c).fd p.epoll).isSome⟩ = true := by
  rcases h with h | ⟨hnew, -, hepoll⟩
  · rcases h.index with hidx | hidx
    · have hop : updateOp (m c) ≠ .EPOLL_CTL_ADD := by
        unfold updateOp
        rw [hidx, if_neg (by decide)]
        split <;> simp
      have hsome : (Finmap.lookup (m c).fd p.epoll).isSome = true :=
        Option.isSome_iff_ne_none.2 (h.watched.1 hidx)
      rw [hsome]
      cases hcase : updateOp (m c) with
      | EPOLL_CTL_ADD => exact absurd hcase hop
      | EPOLL_CTL_MOD => rfl
      | EPOLL_CTL_DEL => rfl
    · have hop : updateOp (m c) = .EPOLL_CTL_ADD := if_pos (.inr hidx)
      have hnone : Finmap.lookup (m c).fd p.epoll = none := by
        by_contra hne
        have hadded := h.watched.2 hne
        rw [hidx] at hadded
        revert hadded
        decide
      rw [hop, hnone]
      rfl
  · have hop : updateOp (m c) = .EPOLL_CTL_ADD := if_pos (.inl hnew)
    rw [hop, hepoll]
    rfl

/-- The operation of a removal, if there is one, fits too. -/
theorem Registered.removeOp_legal (h : Registered p m c) {op : EpollOp}
    (hop : removeOp (m c) = some op) :
    EpollCtl.legal ⟨op, (m c).fd,
      (Finmap.lookup (m c).fd p.epoll).isSome⟩ = true := by
  unfold removeOp at hop
  split at hop
  next hidx =>
    cases hop
    exact Option.isSome_iff_ne_none.2 (h.watched.1 hidx)
  next => cases hop

end EPollPoller

-- ============================================================= the runs

namespace EpollRun

open EPollPoller

variable {fds : Nat ↪ Nat} {s s' : EpollRun}

/-- The log is right: a call adds the one `epoll_ctl` it issued, or
nothing when it left the kernel alone. -/
theorem step_issued {a : ChannelCall} (hok : s.step a = .ok s') :
    (s'.ctls = s.ctls ∧ s'.poller.epoll = s.poller.epoll)
      ∨ ∃ m c op, s'.ctls = s.ctls ++ [s.entry c op]
        ∧ Issued s.poller m c op s'.poller := by
  cases a with
  | interest c op =>
      obtain ⟨⟨p', m'⟩, hupd, hs⟩ := bind_ok_inv hok
      cases hs
      exact .inr ⟨_, c, _, rfl, (UpdateChannel_issued hupd).1⟩
  | remove c =>
      obtain ⟨⟨p', m'⟩, hrem, hs⟩ := bind_ok_inv hok
      cases hs
      have hiss := removeChannel_issued hrem
      cases hop : removeOp (s.mem c) with
      | none =>
          rw [hop] at hiss
          exact .inl ⟨by simp, hiss⟩
      | some op =>
          rw [hop] at hiss
          exact .inr ⟨_, c, op, rfl, hiss⟩

/-- The registration invariant. -/
structure InStepWithKernel (s : EpollRun) : Prop where
  /-- `channels_` has a channel exactly when its index says so -/
  known : ∀ c, Finmap.lookup (s.mem c).fd s.poller.channels = some c
    ↔ (s.mem c).index = kAdded ∨ (s.mem c).index = kDeleted
  /-- the kernel has its descriptor exactly when it is added -/
  watched : ∀ c, Finmap.lookup (s.mem c).fd s.poller.epoll ≠ none
    ↔ (s.mem c).index = kAdded
  /-- with its interest, and pointing at it -/
  shows : ∀ c, (s.mem c).index = kAdded →
    Finmap.lookup (s.mem c).fd s.poller.epoll = some ((s.mem c).events, c)
  /-- and there is nothing else in either -/
  channels : ∀ fd, Finmap.lookup fd s.poller.channels ≠ none →
    ∃ c, (s.mem c).fd = fd
  epoll : ∀ fd, Finmap.lookup fd s.poller.epoll ≠ none →
    ∃ c, (s.mem c).fd = fd
  /-- every `epoll_ctl` issued fitted the set -/
  legal : ∀ e ∈ s.ctls, e.legal = true

/-- The inductive form. -/
structure Inv (fds : Nat ↪ Nat) (s : EpollRun) : Prop where
  reg : RegInv fds s.poller s.mem
  legal : ∀ e ∈ s.ctls, e.legal = true

theorem inv_create : Inv fds (create fds) where
  reg := regInv_create
  legal := fun e he => by cases he

theorem Inv.inStep (h : Inv fds s) : InStepWithKernel s where
  known := by
    intro c
    rcases h.reg.standing c with hreg | ⟨hnew, hchan, -⟩
    · exact iff_of_true hreg.known hreg.index
    · refine iff_of_false ?_ ?_
      · rw [hchan]
        simp
      · rw [hnew]
        decide
  watched := by
    intro c
    rcases h.reg.standing c with hreg | ⟨hnew, -, hepoll⟩
    · exact hreg.watched.symm
    · refine iff_of_false ?_ ?_
      · rw [hepoll]
        simp
      · rw [hnew]
        decide
  shows := h.reg.shows
  channels := h.reg.channels
  epoll := h.reg.epoll
  legal := h.legal

/-- An interest operation succeeds and keeps the invariant. -/
theorem inv_interest (h : Inv fds s) (c : Nat) (op : InterestOp) :
    ∃ s', s.step (.interest c op) = .ok s' ∧ Inv fds s' := by
  obtain ⟨p', m', hok, hreg, -⟩ :=
    h.reg.UpdateChannel c (op.apply (s.mem c)).events
  have hlegal := ((h.reg.standing c).setEvents c
    (op.apply (s.mem c)).events).updateOp_legal
  rw [(setEvents_frame s.mem c c _).1] at hlegal
  refine ⟨⟨p', m', s.ctls
    ++ [s.entry c (updateOp (s.mem.interest c op c))]⟩, ?_, hreg,
    fun e he => ?_⟩
  · simp only [step, interest, hok, ok_bind]
  · rcases List.mem_append.1 he with he | he
    · exact h.legal e he
    · rw [List.mem_singleton.1 he]
      exact hlegal

/-- A removal that succeeds keeps the invariant. -/
theorem inv_remove (h : Inv fds s) {c : Nat}
    (hok : s.step (.remove c) = .ok s') : Inv fds s' := by
  obtain ⟨⟨p', m'⟩, hrem, hs⟩ := bind_ok_inv hok
  cases hs
  obtain ⟨hinv, hreg, -⟩ := h.reg.removeChannel hrem
  refine ⟨hinv, fun e he => ?_⟩
  rcases List.mem_append.1 he with he | he
  · exact h.legal e he
  · rw [Option.mem_toList, Option.map_eq_some_iff] at he
    obtain ⟨op, hop, rfl⟩ := he
    exact hreg.removeOp_legal hop

theorem inv_step (h : Inv fds s) {a : ChannelCall}
    (hok : s.step a = .ok s') : Inv fds s' := by
  cases a with
  | interest c op =>
      obtain ⟨t, ht, hinv⟩ := inv_interest h c op
      rw [ht] at hok
      cases hok
      exact hinv
  | remove c => exact inv_remove h hok

/-- No call takes the fatal branch of `update`. -/
theorem step_not_fatal (h : Inv fds s) (a : ChannelCall) :
    s.step a ≠ .error .epollFatal := by
  intro herr
  cases a with
  | interest c op =>
      obtain ⟨t, ht, -⟩ := inv_interest h c op
      rw [ht] at herr
      cases herr
  | remove c =>
      rcases bind_error_inv herr with hrem | ⟨r, -, hr⟩
      · exact removeChannel_not_fatal hrem
      · cases hr

/-- After every sequence of calls on channels with distinct descriptors
that meets the calls' assertions, the map, the indices and the kernel's
set are in step and every `epoll_ctl` was legal; and no sequence of calls
reaches the fatal branch. -/
theorem registration_run (fds : Nat ↪ Nat) (calls : List ChannelCall) :
    (∀ s, run step (create fds) calls = .ok s → InStepWithKernel s)
      ∧ run step (create fds) calls ≠ .error .epollFatal := by
  constructor
  · intro s hrun
    exact (run_inv_all (I := Inv fds) (fun _ _ _ h hok => inv_step h hok)
      inv_create hrun).inStep
  · intro hrun
    exact run_error (I := Inv fds) (Q := fun e => e ≠ .epollFatal)
      (fun _ _ _ h _ hok => inv_step h hok)
      (fun _ a e h _ herr he => step_not_fatal h a (he ▸ herr)) inv_create
      (along_of_forall (fun _ _ => trivial) calls _) hrun rfl

/-- A channel without interest, registered, updated without interest,
given one, emptied and removed, beside another one. -/
theorem registration_readded :
    ∃ s, run step (create (Function.Embedding.refl Nat))
        [.interest 3 .disableAll, .interest 5 .enableReading,
          .interest 3 .disableAll, .interest 3 .enableWriting,
          .interest 3 .disableAll, .remove 3, .interest 3 .enableReading]
      = .ok s ∧ s.ctls.length = 6 ∧ InStepWithKernel s := by
  obtain ⟨s, hrun, hs⟩ := map_ok_inv
    (show (run step (create (Function.Embedding.refl Nat))
        [.interest 3 .disableAll, .interest 5 .enableReading,
          .interest 3 .disableAll, .interest 3 .enableWriting,
          .interest 3 .disableAll, .remove 3,
          .interest 3 .enableReading]).map (fun s => s.ctls.length)
      = .ok 6 by decide +kernel)
  exact ⟨s, hrun, hs, (registration_run _ _).1 s hrun⟩

end EpollRun

end Cobra
