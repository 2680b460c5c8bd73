/-
`EPollPoller`, for one channel: a registered channel can be updated and,
once its interest is empty, removed without a failed assertion, and the
poller and the kernel then know nothing of it. Everything is kept by
descriptor, so the calls for other channels touch nothing of this.
-/
import Cobra.Poller

namespace Cobra

open Machine ChannelMem

namespace EPollPoller

variable {p p' : EPollPoller} {m m' : ChannelMem} {c c' : Nat}

/-- The poller knows the channel, and the kernel watches it unless its
interest was emptied. -/
structure Registered (p : EPollPoller) (m : ChannelMem) (c : Nat) : Prop where
  known : Finmap.lookup (m c).fd p.channels = some c
  index : (m c).index = kAdded ∨ (m c).index = kDeleted
  watched : (m c).index = kAdded ↔ Finmap.lookup (m c).fd p.epoll ≠ none

/-- The poller knows nothing of the descriptor, and neither does the
kernel. -/
def Unknown (p : EPollPoller) (fd : Nat) : Prop :=
  Finmap.lookup fd p.channels = none ∧ Finmap.lookup fd p.epoll = none

/-- `update` succeeds when the operation fits the kernel's set, and does
what it says. -/
theorem update_add (h : Finmap.lookup (m c).fd p.epoll = none) :
    p.update .EPOLL_CTL_ADD m c = .ok { p with
      epoll := Finmap.insert (m c).fd ((m c).events, c) p.epoll } := by
  unfold update epollCtl
  rw [h]

theorem update_mod (h : Finmap.lookup (m c).fd p.epoll ≠ none) :
    p.update .EPOLL_CTL_MOD m c = .ok { p with
      epoll := Finmap.insert (m c).fd ((m c).events, c) p.epoll } := by
  obtain ⟨x, hx⟩ := Option.ne_none_iff_exists'.1 h
  unfold update epollCtl
  rw [hx]

theorem update_del (h : Finmap.lookup (m c).fd p.epoll ≠ none) :
    p.update .EPOLL_CTL_DEL m c = .ok { p with
      epoll := Finmap.erase (m c).fd p.epoll } := by
  obtain ⟨x, hx⟩ := Option.ne_none_iff_exists'.1 h
  unfold update epollCtl
  rw [hx]

/-- What `update` leaves alone. -/
theorem update_elsewhere {op : EpollOp} (h : p.update op m c = .ok p') :
    p'.channels = p.channels ∧ ∀ fd, fd ≠ (m c).fd →
      Finmap.lookup fd p'.epoll = Finmap.lookup fd p.epoll := by
  unfold update at h
  split at h
  next set hset =>
    cases h
    refine ⟨rfl, fun fd hfd => ?_⟩
    unfold epollCtl at hset
    split at hset
    · cases hset
      exact Finmap.lookup_insert_of_ne _ hfd
    · cases hset
      exact Finmap.lookup_insert_of_ne _ hfd
    · cases hset
      exact Finmap.lookup_erase_ne hfd
    · cases hset
  next =>
    split at h
    · cases h
      exact ⟨rfl, fun _ _ => rfl⟩
    · cases h

/-- Adding a channel the poller knows. -/
theorem addChannel_registered
    (hknown : Finmap.lookup (m c).fd p.channels = some c)
    (h : p.addChannel m c = .ok (p', m')) : Registered p' m' c := by
  unfold addChannel at h
  obtain ⟨p₁, hupd, h⟩ := bind_ok_inv h
  cases h
  have hself := setIndex_self m c kAdded
  have hchan := (update_elsewhere hupd).1
  refine ⟨?_, ?_, ?_⟩
  · rw [hself, hchan]
    exact hknown
  · rw [hself]
    exact .inl rfl
  · refine iff_of_true (by rw [hself]) ?_
    -- the descriptor was added, or else the failure was fatal
    unfold update at hupd
    split at hupd
    next set hset =>
      cases hupd
      unfold epollCtl at hset
      split at hset
      · cases hset
        exact (Finmap.lookup_insert _).trans_ne (Option.some_ne_none _)
      · cases hset
        exact (Finmap.lookup_insert _).trans_ne (Option.some_ne_none _)
      · contradiction
      · cases hset
    next => cases hupd

theorem addChannel_holds (hnot : Finmap.lookup (m c).fd p.epoll = none) :
    ∃ r, p.addChannel m c = .ok r := by
  have hfd := (setIndex_frame m c c kAdded).1
  unfold addChannel
  simp only
  rw [update_add (by rw [hfd]; exact hnot), ok_bind]
  exact ⟨_, rfl⟩

/-- Updating a channel that the kernel watches. -/
theorem modChannel_holds (h : Registered p m c) (hidx : (m c).index = kAdded) :
    Holds (p.modChannel m c) fun r => Registered r.1 r.2 c := by
  have hwatched := h.watched.1 hidx
  unfold modChannel
  split
  · have hself := setIndex_self m c kDeleted
    rw [update_del hwatched, ok_bind]
    refine holds_ok ⟨?_, ?_, ?_⟩
    · show Finmap.lookup (m.setIndex c kDeleted c).fd p.channels = some c
      rw [hself]
      exact h.known
    · show (m.setIndex c kDeleted c).index = _
        ∨ (m.setIndex c kDeleted c).index = _
      rw [hself]
      exact .inr rfl
    · show (m.setIndex c kDeleted c).index = _
        ↔ Finmap.lookup (m.setIndex c kDeleted c).fd _ ≠ none
      rw [hself]
      refine iff_of_false ?_ (not_not.2 (Finmap.lookup_erase _ _))
      show ¬ kDeleted = kAdded
      decide
  · rw [update_mod hwatched, ok_bind]
    refine holds_ok ⟨h.known, h.index, iff_of_true hidx ?_⟩
    exact (Finmap.lookup_insert _).trans_ne (Option.some_ne_none _)

/-- A registered channel can be updated. -/
theorem UpdateChannel_registered (h : Registered p m c) :
    Holds (p.UpdateChannel m c) fun r => Registered r.1 r.2 c := by
  have hknown : Finmap.lookup (m c).fd p.channels ≠ none :=
    h.known.trans_ne (Option.some_ne_none _)
  unfold UpdateChannel
  rcases h.index with hidx | hidx
  · rw [if_neg (by rw [hidx]; decide), if_neg (by rw [hidx]; decide)]
    exact holds_require hknown (holds_require h.known
      (holds_require hidx (modChannel_holds h hidx)))
  · rw [if_neg (by rw [hidx]; decide), if_pos hidx]
    refine holds_require hknown (holds_require h.known ?_)
    have hnot : Finmap.lookup (m c).fd p.epoll = none := by
      by_contra hne
      have hadded := h.watched.2 hne
      rw [hidx] at hadded
      revert hadded
      decide
    obtain ⟨r, hr⟩ := addChannel_holds hnot
    exact ⟨r, hr, addChannel_registered h.known hr⟩

/-- A new channel is registered. -/
theorem UpdateChannel_new (hidx : (m c).index = kNew)
    (h : p.UpdateChannel m c = .ok (p', m')) : Registered p' m' c := by
  unfold UpdateChannel at h
  rw [if_pos hidx] at h
  obtain ⟨-, -, h⟩ := bind_ok_inv h
  exact addChannel_registered (Finmap.lookup_insert _) h

/-- A registered channel with no interest can be removed, and is then
forgotten. -/
theorem removeChannel_registered (h : Registered p m c)
    (hnone : (m c).isNoneEvent = true) :
    Holds (p.removeChannel m c) fun r => Unknown r.1 (m c).fd := by
  have hknown : Finmap.lookup (m c).fd p.channels ≠ none :=
    h.known.trans_ne (Option.some_ne_none _)
  unfold removeChannel
  refine holds_require hknown (holds_require h.known
    (holds_require hnone (holds_require h.index ?_)))
  unfold dropChannel
  split
  next hidx =>
    have hdel := update_del
      (p := { p with channels := Finmap.erase (m c).fd p.channels })
      (h.watched.1 hidx)
    rw [hdel, ok_bind]
    exact holds_ok ⟨Finmap.lookup_erase _ _, Finmap.lookup_erase _ _⟩
  next hidx =>
    refine holds_ok ⟨Finmap.lookup_erase _ _, ?_⟩
    by_contra hne
    exact hidx (h.watched.2 hne)

-- ------------------------------------------------------- other channels

/-- A call for the channel `c` leaves what concerns other descriptors
and other channels alone; the descriptor was free, or the channel's
own. -/
structure Elsewhere (p : EPollPoller) (m : ChannelMem) (c : Nat)
    (p' : EPollPoller) (m' : ChannelMem) : Prop where
  channels : ∀ fd, fd ≠ (m c).fd →
    Finmap.lookup fd p'.channels = Finmap.lookup fd p.channels
  epoll : ∀ fd, fd ≠ (m c).fd →
    Finmap.lookup fd p'.epoll = Finmap.lookup fd p.epoll
  mem : ∃ index, m' = m.setIndex c index
  own : ∀ c', Finmap.lookup (m c).fd p.channels = some c' → c' = c

theorem Elsewhere.registered (he : Elsewhere p m c p' m')
    (h : Registered p m c') (hne : c' ≠ c) : Registered p' m' c' := by
  obtain ⟨index, hm⟩ := he.mem
  have hsame : m' c' = m c' := by
    rw [hm]
    exact setIndex_of_ne index hne
  have hfd : (m c').fd ≠ (m c).fd := by
    intro heq
    exact hne (he.own c' (heq ▸ h.known))
  refine ⟨?_, ?_, ?_⟩
  · rw [hsame, he.channels _ hfd]
    exact h.known
  · rw [hsame]
    exact h.index
  · rw [hsame, he.epoll _ hfd]
    exact h.watched

theorem addChannel_elsewhere (h : p.addChannel m c = .ok (p', m')) :
    p'.channels = p.channels ∧ m' = m.setIndex c kAdded
      ∧ ∀ fd, fd ≠ (m c).fd →
        Finmap.lookup fd p'.epoll = Finmap.lookup fd p.epoll := by
  unfold addChannel at h
  obtain ⟨p₁, hupd, h⟩ := bind_ok_inv h
  cases h
  obtain ⟨hchan, hepoll⟩ := update_elsewhere hupd
  refine ⟨hchan, rfl, fun fd hfd => hepoll fd ?_⟩
  rw [(setIndex_frame m c c kAdded).1]
  exact hfd

theorem modChannel_elsewhere (h : p.modChannel m c = .ok (p', m')) :
    p'.channels = p.channels ∧ (∃ index, m' = m.setIndex c index)
      ∧ ∀ fd, fd ≠ (m c).fd →
        Finmap.lookup fd p'.epoll = Finmap.lookup fd p.epoll := by
  unfold modChannel at h
  split at h
  · obtain ⟨p₁, hupd, h⟩ := bind_ok_inv h
    cases h
    exact ⟨(update_elsewhere hupd).1, ⟨kDeleted, rfl⟩,
      (update_elsewhere hupd).2⟩
  · obtain ⟨p₁, hupd, h⟩ := bind_ok_inv h
    cases h
    exact ⟨(update_elsewhere hupd).1,
      ⟨(m c).index, (Function.update_eq_self c m).symm⟩,
      (update_elsewhere hupd).2⟩

theorem UpdateChannel_elsewhere (h : p.UpdateChannel m c = .ok (p', m')) :
    Elsewhere p m c p' m' := by
  unfold UpdateChannel at h
  split at h
  · obtain ⟨u, hfresh, h⟩ := bind_ok_inv h
    obtain ⟨hchan, hm, hepoll⟩ := addChannel_elsewhere h
    refine ⟨fun fd hfd => ?_, hepoll, ⟨_, hm⟩, fun c' hc => ?_⟩
    · rw [hchan]
      exact Finmap.lookup_insert_of_ne _ hfd
    · rw [require_inv hfresh] at hc
      cases hc
  · split at h
    · obtain ⟨-, -, h⟩ := bind_ok_inv h
      obtain ⟨u, hsame, h⟩ := bind_ok_inv h
      obtain ⟨hchan, hm, hepoll⟩ := addChannel_elsewhere h
      refine ⟨fun fd _ => by rw [hchan], hepoll, ⟨_, hm⟩, fun c' hc => ?_⟩
      rw [require_inv hsame] at hc
      exact (Option.some.inj hc).symm
    · obtain ⟨-, -, h⟩ := bind_ok_inv h
      obtain ⟨u, hsame, h⟩ := bind_ok_inv h
      obtain ⟨-, -, h⟩ := bind_ok_inv h
      obtain ⟨hchan, hm, hepoll⟩ := modChannel_elsewhere h
      refine ⟨fun fd _ => by rw [hchan], hepoll, hm, fun c' hc => ?_⟩
      rw [require_inv hsame] at hc
      exact (Option.some.inj hc).symm

theorem removeChannel_elsewhere (h : p.removeChannel m c = .ok (p', m')) :
    Elsewhere p m c p' m' := by
  unfold removeChannel at h
  obtain ⟨-, -, h⟩ := bind_ok_inv h
  obtain ⟨u, hsame, h⟩ := bind_ok_inv h
  obtain ⟨-, -, h⟩ := bind_ok_inv h
  obtain ⟨-, -, h⟩ := bind_ok_inv h
  have hown : ∀ c', Finmap.lookup (m c).fd p.channels = some c' → c' = c := by
    intro c' hc
    rw [require_inv hsame] at hc
    exact (Option.some.inj hc).symm
  have herase : ∀ fd, fd ≠ (m c).fd →
      Finmap.lookup fd (Finmap.erase (m c).fd p.channels)
        = Finmap.lookup fd p.channels := fun fd hfd =>
    Finmap.lookup_erase_ne hfd
  unfold dropChannel at h
  split at h
  · obtain ⟨p₁, hupd, h⟩ := bind_ok_inv h
    cases h
    obtain ⟨hchan, hepoll⟩ := update_elsewhere hupd
    refine ⟨fun fd hfd => ?_, hepoll, ⟨kNew, rfl⟩, hown⟩
    rw [hchan]
    exact herase fd hfd
  · cases h
    exact ⟨herase, fun _ _ => rfl, ⟨kNew, rfl⟩, hown⟩

end EPollPoller

end Cobra
