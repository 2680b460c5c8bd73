/-
`PollPoller`, for one channel: a registered channel can be updated and,
once its interest is empty, removed without a failed assertion, and the
poller then knows nothing of it.

# Positions

The poller keeps an array, and each channel its position in it. An
entry is removed by moving the last one into its place and telling the
channel it belongs to, so a call for one channel can change the index of
another. `TableInv` says that the positions are right: the descriptors
of the entries are a dense table, and the indices of the channels in the
map are its index.

# Entries

`Shown` is what the assertion of `removeChannel` asks of the entry of a
channel without interest. An entry is switched off with the interest and
not switched on again, so it shows less than the interest; a connection
empties its interest only once.
-/
import Cobra.Lib.DenseTable
import Cobra.Poller

namespace Cobra

open Machine DenseTable ChannelMem

/-- An entry for a descriptor is switched on or off. -/
theorem PollFd.fd_of_decode {pfd : PollFd} {fd : Nat}
    (h : pfd.decode = fd) : pfd.fd = fd ∨ pfd.fd = -fd - 1 := by
  unfold PollFd.decode at h
  split at h <;> omega

theorem PollFd.decode_on {pfd : PollFd} {fd : Nat} (h : pfd.fd = fd) :
    pfd.decode = fd := by
  unfold PollFd.decode
  rw [if_neg (by omega)]
  omega

theorem PollFd.decode_off {pfd : PollFd} {fd : Nat} (h : pfd.fd = -fd - 1) :
    pfd.decode = fd := by
  unfold PollFd.decode
  rw [if_pos (by omega)]
  omega

/-- A refreshed entry is for the same descriptor. -/
theorem PollFd.decode_refresh {pfd : PollFd} {ch : Channel}
    (h : pfd.decode = ch.fd) : (pfd.refresh ch).decode = ch.fd := by
  cases hnone : ch.isNoneEvent with
  | false =>
      have hsame : (pfd.refresh ch).fd = pfd.fd := by
        unfold PollFd.refresh
        rw [hnone]
        rfl
      rcases PollFd.fd_of_decode h with hfd | hfd
      · exact PollFd.decode_on (hsame.trans hfd)
      · exact PollFd.decode_off (hsame.trans hfd)
  | true =>
      apply PollFd.decode_off
      unfold PollFd.refresh
      rw [hnone]
      rfl

namespace PollPoller

variable {p p' : PollPoller} {m m' : ChannelMem} {c c' : Nat}

/-- The descriptors of the entries. -/
def keys (p : PollPoller) : List Nat := p.pollfds.map PollFd.decode

/-- The position of each descriptor, by its channel's index. -/
def position (p : PollPoller) (m : ChannelMem) (fd : Nat) : Option Nat :=
  (Finmap.lookup fd p.channels).map fun c => (m c).index.toNat

/-- The channels in the map know their descriptors, and their indices are
the positions of the entries. -/
structure TableInv (p : PollPoller) (m : ChannelMem) : Prop where
  own : ∀ fd c, Finmap.lookup fd p.channels = some c →
    (m c).fd = fd ∧ 0 ≤ (m c).index
  table : Indexes (p.position m) p.keys

/-- The poller knows the channel. -/
def Registered (p : PollPoller) (m : ChannelMem) (c : Nat) : Prop :=
  Finmap.lookup (m c).fd p.channels = some c

/-- The channel's entry shows its interest. -/
def Shown (p : PollPoller) (m : ChannelMem) (c : Nat) : Prop :=
  ∃ pfd, p.pollfds[(m c).index.toNat]? = some pfd
    ∧ pfd.events = (m c).events.truncate 16
    ∧ ((m c).isNoneEvent = true → pfd.fd = -(m c).fd - 1)

/-- The poller knows nothing of the descriptor. -/
def Unknown (p : PollPoller) (fd : Nat) : Prop :=
  Finmap.lookup fd p.channels = none ∧ ∀ pfd ∈ p.pollfds, pfd.decode ≠ fd

/-- The positions depend on the map, the keys, and the channels'
descriptors and indices only. -/
theorem TableInv.congr (h : TableInv p m) (hchan : p'.channels = p.channels)
    (hkeys : p'.keys = p.keys) (hfd : ∀ c, (m' c).fd = (m c).fd)
    (hidx : ∀ c, (m' c).index = (m c).index) : TableInv p' m' := by
  have hpos : p'.position m' = p.position m := by
    unfold position
    simp only [hchan, hidx]
  refine ⟨fun fd c hc => ?_, ?_⟩
  · rw [hchan] at hc
    rw [hfd, hidx]
    exact h.own fd c hc
  · rw [hpos, hkeys]
    exact h.table

/-- They do not depend on interests. -/
theorem TableInv.setEvents (h : TableInv p m) (c : Nat)
    (events : BitVec 32) : TableInv p (m.setEvents c events) :=
  h.congr rfl rfl (fun c' => (setEvents_frame m c c' events).1)
    fun c' => (setEvents_frame m c c' events).2

theorem TableInv.unknown (h : TableInv p m) {fd : Nat}
    (hfd : Finmap.lookup fd p.channels = none) : Unknown p fd := by
  refine ⟨hfd, fun pfd hp heq => ?_⟩
  have hpos : p.position m fd = none := by
    unfold position
    rw [hfd]
    rfl
  exact h.table.not_mem hpos (List.mem_map.2 ⟨pfd, hp, heq⟩)

theorem Registered.known (h : Registered p m c) :
    Finmap.lookup (m c).fd p.channels = some c := h

theorem Registered.ne_none (h : Registered p m c) :
    Finmap.lookup (m c).fd p.channels ≠ none :=
  h.known.trans_ne (Option.some_ne_none _)

theorem Registered.position_eq (h : Registered p m c) :
    p.position m (m c).fd = some (m c).index.toNat := by
  unfold position
  rw [h.known]
  rfl

/-- Registered channels of one descriptor are the same. -/
theorem Registered.fd_ne (h : Registered p m c) (h' : Registered p m c')
    (hne : c' ≠ c) : (m c').fd ≠ (m c).fd := by
  intro heq
  unfold Registered at h h'
  rw [heq, h] at h'
  exact hne (Option.some.inj h').symm

/-- A registered channel has an entry, for its descriptor. -/
theorem TableInv.entry (h : TableInv p m) (hreg : Registered p m c) :
    ∃ pfd, p.pollfds[(m c).index.toNat]? = some pfd
      ∧ pfd.decode = (m c).fd := by
  have hkey := (h.table _ _).1 hreg.position_eq
  unfold keys at hkey
  rw [List.getElem?_map, Option.map_eq_some_iff] at hkey
  exact hkey

theorem keys_at {i : Nat} {pfd : PollFd} (h : p.pollfds[i]? = some pfd) :
    p.keys[i]? = some pfd.decode := by
  unfold keys
  rw [List.getElem?_map, h]
  rfl

/-- The channel of an entry has the entry's position. -/
theorem TableInv.index_of_entry (h : TableInv p m) {i : Nat} {pfd : PollFd}
    (hpfd : p.pollfds[i]? = some pfd)
    (hc : Finmap.lookup pfd.decode p.channels = some c) :
    Registered p m c ∧ (m c).index.toNat = i := by
  have hfd := (h.own _ _ hc).1
  have hreg : Registered p m c := by
    unfold Registered
    rw [hfd]
    exact hc
  have hpos := (h.table _ _).2 (keys_at hpfd)
  rw [← hfd, hreg.position_eq] at hpos
  exact ⟨hreg, Option.some.inj hpos⟩

theorem TableInv.index_ne (h : TableInv p m) (hreg : Registered p m c)
    (hreg' : Registered p m c') (hne : c' ≠ c) :
    (m c').index.toNat ≠ (m c).index.toNat := by
  intro heq
  refine hreg.fd_ne hreg' hne (h.table.inj hreg'.position_eq ?_)
  rw [heq]
  exact hreg.position_eq

-- -------------------------------------------------------------- updates

/-- What an update can do. -/
theorem UpdateChannel_cases (h : p.UpdateChannel m c = .ok (p', m')) :
    ((m c).index < 0 ∧ Finmap.lookup (m c).fd p.channels = none
      ∧ p' = { pollfds := p.pollfds ++ [⟨(m c).fd, (m c).events.truncate 16, 0⟩]
               channels := Finmap.insert (m c).fd c p.channels }
      ∧ m' = m.setIndex c p.pollfds.length)
    ∨ (0 ≤ (m c).index ∧ Registered p m c
      ∧ ∃ pfd, p.pollfds[(m c).index.toNat]? = some pfd
        ∧ p' = { p with pollfds :=
            p.pollfds.set (m c).index.toNat (pfd.refresh (m c)) }
        ∧ m' = m) := by
  unfold UpdateChannel at h
  simp only at h
  split at h
  next hneg =>
    obtain ⟨u, hfresh, h⟩ := bind_ok_inv h
    cases h
    exact .inl ⟨hneg, require_inv hfresh, rfl, rfl⟩
  next hneg =>
    obtain ⟨-, -, h⟩ := bind_ok_inv h
    obtain ⟨u, hsame, h⟩ := bind_ok_inv h
    obtain ⟨⟨idx, pfd⟩, hentry, h⟩ := bind_ok_inv h
    obtain ⟨-, -, h⟩ := bind_ok_inv h
    cases h
    unfold entryAt at hentry
    rw [if_pos (by omega)] at hentry
    split at hentry
    next pfd' hpfd =>
      cases hentry
      have hreg : Finmap.lookup (m c).fd p.channels = some c :=
        require_inv hsame
      exact .inr ⟨by omega, hreg, pfd, hpfd, rfl, rfl⟩
    next => cases hentry

/-- Refreshing an entry changes nothing about the positions. -/
theorem keys_set_refresh {pfd : PollFd} {ch : Channel} {idx : Nat}
    (hpfd : p.pollfds[idx]? = some pfd) (hdec : pfd.decode = ch.fd) :
    keys { p with pollfds := p.pollfds.set idx (pfd.refresh ch) } = p.keys := by
  unfold keys
  show List.map _ (p.pollfds.set idx (pfd.refresh ch)) = _
  apply List.ext_getElem?
  intro i
  rw [List.getElem?_map, List.getElem?_map]
  by_cases hi : i = idx
  · subst hi
    rw [List.getElem?_set_self (List.getElem?_eq_some_iff.1 hpfd).1, hpfd,
      Option.map_some, Option.map_some, PollFd.decode_refresh hdec, hdec]
  · rw [List.getElem?_set_ne (fun h => hi h.symm)]

/-- A channel that is new is not in the map. -/
theorem TableInv.ne_of_neg (h : TableInv p m) (hneg : (m c).index < 0)
    {fd : Nat} (hc : Finmap.lookup fd p.channels = some c') : c' ≠ c := by
  intro heq
  have hidx := (h.own fd c' hc).2
  rw [heq] at hidx
  omega

/-- The index with a new channel at the end. -/
theorem position_push (hinv : TableInv p m) (hneg : (m c).index < 0)
    (hp : p'.channels = Finmap.insert (m c).fd c p.channels) (idx : Nat) :
    p'.position (m.setIndex c idx)
      = Function.update (p.position m) (m c).fd (some idx) := by
  funext fd
  unfold position
  rw [hp]
  by_cases hfd : fd = (m c).fd
  · subst hfd
    rw [Finmap.lookup_insert, Function.update_self, Option.map_some,
      setIndex_self]
    rfl
  · rw [Finmap.lookup_insert_of_ne _ hfd, Function.update_of_ne hfd]
    cases hc : Finmap.lookup fd p.channels with
    | none => rfl
    | some c' =>
        rw [Option.map_some, Option.map_some,
          setIndex_of_ne _ (hinv.ne_of_neg hneg hc)]

theorem UpdateChannel_tableInv (hinv : TableInv p m)
    (h : p.UpdateChannel m c = .ok (p', m')) : TableInv p' m' := by
  rcases UpdateChannel_cases h with ⟨hneg, hfresh, hp, hm⟩
    | ⟨-, hreg, pfd, hpfd, rfl, rfl⟩
  · have hchan : p'.channels = Finmap.insert (m c).fd c p.channels := by
      rw [hp]
    have hkeys : p'.keys = p.keys ++ [(m c).fd] := by
      rw [hp]
      unfold keys
      rw [List.map_append, List.map_singleton, PollFd.decode_on rfl]
    have hlen : p.keys.length = p.pollfds.length := List.length_map ..
    refine ⟨fun fd c' hc => ?_, ?_⟩
    · rw [hm]
      rw [hchan] at hc
      by_cases hfd : fd = (m c).fd
      · subst hfd
        rw [Finmap.lookup_insert] at hc
        cases hc
        rw [setIndex_self]
        exact ⟨rfl, Int.natCast_nonneg _⟩
      · rw [Finmap.lookup_insert_of_ne _ hfd] at hc
        rw [setIndex_of_ne _ (hinv.ne_of_neg hneg hc)]
        exact hinv.own fd c' hc
    · rw [hkeys, hm, position_push hinv hneg hchan, ← hlen]
      apply hinv.table.push
      unfold position
      rw [hfresh]
      rfl
  · refine ⟨hinv.own, ?_⟩
    obtain ⟨pfd', hpfd', hdec⟩ := hinv.entry hreg
    rw [hpfd] at hpfd'
    cases hpfd'
    rw [keys_set_refresh hpfd hdec]
    exact hinv.table

-- ------------------------------------------------------------- removals

/-- What taking out an entry can do. -/
theorem takeOut_cases {idx : Nat} (h : p.takeOut m idx = .ok (p', m')) :
    (idx = p.pollfds.length - 1
      ∧ p' = { p with pollfds := p.pollfds.dropLast } ∧ m' = m)
    ∨ (idx ≠ p.pollfds.length - 1 ∧ ∃ last c,
      p.pollfds[p.pollfds.length - 1]? = some last
      ∧ Finmap.lookup last.decode p.channels = some c
      ∧ p' = { p with pollfds := DenseTable.swapRemove p.pollfds idx last }
      ∧ m' = m.setIndex c idx) := by
  unfold takeOut at h
  split at h
  next hidx =>
    cases h
    exact .inl ⟨hidx, rfl, rfl⟩
  next hidx =>
    split at h
    next => cases h
    next last hlast =>
      rw [List.getLast?_eq_getElem?] at hlast
      split at h
      next => cases h
      next c hc =>
        cases h
        exact .inr ⟨hidx, last, c, hlast, hc, rfl, rfl⟩

/-- What a removal does. -/
theorem removeChannel_cases (h : p.removeChannel m c = .ok (p', m')) :
    Registered p m c
      ∧ takeOut { p with channels := Finmap.erase (m c).fd p.channels } m
        (m c).index.toNat = .ok (p', m') := by
  unfold removeChannel at h
  obtain ⟨-, -, h⟩ := bind_ok_inv h
  obtain ⟨u, hsame, h⟩ := bind_ok_inv h
  have hreg : Finmap.lookup (m c).fd p.channels = some c :=
    require_inv hsame
  obtain ⟨-, -, h⟩ := bind_ok_inv h
  obtain ⟨⟨idx, pfd⟩, hentry, h⟩ := bind_ok_inv h
  obtain ⟨-, -, h⟩ := bind_ok_inv h
  unfold entryAt at hentry
  split at hentry
  · split at hentry
    · cases hentry
      exact ⟨hreg, h⟩
    · cases hentry
  · cases hentry

/-- The index without a descriptor. -/
theorem position_erase {fd : Nat}
    (h : p'.channels = Finmap.erase fd p.channels) :
    p'.position m = Function.update (p.position m) fd none := by
  funext fd'
  unfold position
  rw [h]
  by_cases hfd : fd' = fd
  · subst hfd
    rw [Finmap.lookup_erase, Function.update_self]
    rfl
  · rw [Finmap.lookup_erase_ne hfd, Function.update_of_ne hfd]

/-- The index with a channel told of its new position. -/
theorem position_setIndex (hinv : TableInv p m) {fd idx : Nat}
    (hc : Finmap.lookup fd p.channels = some c) :
    p.position (m.setIndex c idx)
      = Function.update (p.position m) fd (some idx) := by
  funext fd'
  unfold position
  by_cases hfd : fd' = fd
  · subst hfd
    rw [hc, Function.update_self, Option.map_some, setIndex_self]
    rfl
  · rw [Function.update_of_ne hfd]
    cases hc' : Finmap.lookup fd' p.channels with
    | none => rfl
    | some c' =>
        have hne : c' ≠ c := by
          intro heq
          rw [heq] at hc'
          exact hfd ((hinv.own _ _ hc').1.symm.trans (hinv.own _ _ hc).1)
        rw [Option.map_some, Option.map_some, setIndex_of_ne _ hne]

theorem lookup_of_erase {fd fd' : Nat}
    (h : Finmap.lookup fd' (Finmap.erase fd p.channels) = some c') :
    fd' ≠ fd ∧ Finmap.lookup fd' p.channels = some c' := by
  by_cases hfd : fd' = fd
  · subst hfd
    rw [Finmap.lookup_erase] at h
    cases h
  · rw [Finmap.lookup_erase_ne hfd] at h
    exact ⟨hfd, h⟩

theorem TableInv.index_lt (h : TableInv p m) (hreg : Registered p m c) :
    (m c).index.toNat < p.pollfds.length := by
  obtain ⟨pfd, hpfd, -⟩ := h.entry hreg
  exact (List.getElem?_eq_some_iff.1 hpfd).1

theorem removeChannel_tableInv (hinv : TableInv p m)
    (h : p.removeChannel m c = .ok (p', m')) : TableInv p' m' := by
  obtain ⟨hreg, h⟩ := removeChannel_cases h
  have hlen : p.keys.length = p.pollfds.length := List.length_map ..
  rcases takeOut_cases h with ⟨hidx, hp, hm⟩
    | ⟨hidx, last, c₁, hlast, hc₁, hp, hm⟩
  · have hkeys : p'.keys = p.keys.dropLast := by
      rw [hp]
      exact List.map_dropLast ..
    have hpos : p'.position m = Function.update (p.position m) (m c).fd none :=
      position_erase (by rw [hp])
    subst hm
    refine ⟨fun fd c' hc => ?_, ?_⟩
    · rw [hp] at hc
      exact hinv.own fd c' (lookup_of_erase hc).2
    · rw [hkeys, hpos]
      apply hinv.table.pop
      rw [hreg.position_eq, hlen]
      exact congrArg some hidx
  · obtain ⟨hne, hc₁'⟩ := lookup_of_erase hc₁
    have hkeys : p'.keys
        = DenseTable.swapRemove p.keys (m c).index.toNat last.decode := by
      rw [hp]
      unfold keys DenseTable.swapRemove
      rw [List.map_dropLast, List.map_set]
    have hpos : p'.position m' = Function.update (Function.update
        (p.position m) last.decode (some (m c).index.toNat)) (m c).fd none := by
      rw [hm, position_erase (p := p) (by rw [hp]), position_setIndex hinv hc₁']
    refine ⟨fun fd c' hc => ?_, ?_⟩
    · rw [hp] at hc
      have hown := hinv.own fd c' (lookup_of_erase hc).2
      rw [hm]
      by_cases hcc : c' = c₁
      · subst hcc
        rw [setIndex_self]
        exact ⟨hown.1, Int.natCast_nonneg _⟩
      · rw [setIndex_of_ne _ hcc]
        exact hown
    · rw [hkeys, hpos]
      refine hinv.table.swapRemove hreg.position_eq ?_ ?_
      · have hlt := hinv.index_lt hreg
        rw [hlen]
        simp only at hidx
        omega
      · rw [hlen]
        exact keys_at hlast

-- --------------------------------------------------------- one channel

/-- A registered channel can be updated, and its entry then shows its
interest. -/
theorem UpdateChannel_registered (hinv : TableInv p m)
    (h : Registered p m c) : Holds (p.UpdateChannel m c) fun r =>
      Registered r.1 r.2 c ∧ Shown r.1 r.2 c := by
  obtain ⟨pfd, hpfd, hdec⟩ := hinv.entry h
  have hidx := (hinv.own _ _ h).2
  have hentry : p.entryAt (m c).index .updateIndex
      = .ok ((m c).index.toNat, pfd) := by
    unfold entryAt
    rw [if_pos hidx, hpfd]
  unfold UpdateChannel
  simp only
  rw [if_neg (by omega), require_bind h.ne_none, require_bind h.known, hentry,
    ok_bind]
  refine holds_require (PollFd.fd_of_decode hdec) (holds_ok ⟨h, ?_⟩)
  refine ⟨pfd.refresh (m c), ?_, rfl, fun hnone => ?_⟩
  · exact List.getElem?_set_self (hinv.index_lt h)
  · unfold PollFd.refresh
    exact if_pos hnone

/-- A new channel is registered, and its entry shows its interest. -/
theorem UpdateChannel_new (hidx : (m c).index < 0)
    (hsome : (m c).isNoneEvent = false)
    (h : p.UpdateChannel m c = .ok (p', m')) :
    Registered p' m' c ∧ Shown p' m' c := by
  rcases UpdateChannel_cases h with ⟨-, -, rfl, rfl⟩ | ⟨hidx', -⟩
  · have hself := setIndex_self m c p.pollfds.length
    refine ⟨?_, ⟨(m c).fd, (m c).events.truncate 16, 0⟩, ?_, ?_, ?_⟩
    · unfold Registered
      rw [hself]
      exact Finmap.lookup_insert _
    · rw [hself]
      exact List.getElem?_concat_length
    · rw [hself]
    · intro hnone
      rw [hself] at hnone
      exact absurd (hsome.symm.trans hnone) (by decide)
  · omega

/-- The entry of a registered channel can be taken out: the last entry
belongs to a channel of the map. -/
theorem takeOut_ok (hinv : TableInv p m) (h : Registered p m c) :
    ∃ r, takeOut { p with channels := Finmap.erase (m c).fd p.channels } m
      (m c).index.toNat = .ok r := by
  have hlt := hinv.index_lt h
  unfold takeOut
  split
  next => exact ⟨_, rfl⟩
  next hidx =>
    simp only at hidx
    obtain ⟨last, hlast⟩ : ∃ last, p.pollfds[p.pollfds.length - 1]?
        = some last := ⟨_, List.getElem?_eq_getElem (by omega)⟩
    have hpos : p.position m last.decode = some (p.pollfds.length - 1) :=
      (hinv.table _ _).2 (keys_at hlast)
    have hne : last.decode ≠ (m c).fd := by
      intro heq
      rw [heq, h.position_eq] at hpos
      exact hidx (Option.some.inj hpos)
    unfold position at hpos
    obtain ⟨c₁, hc₁, -⟩ := Option.map_eq_some_iff.1 hpos
    simp only [List.getLast?_eq_getElem?, hlast,
      Finmap.lookup_erase_ne hne, hc₁]
    exact ⟨_, rfl⟩

/-- A removed channel is forgotten. -/
theorem removeChannel_unknown (hinv : TableInv p m)
    (h : p.removeChannel m c = .ok (p', m')) : Unknown p' (m c).fd := by
  apply (removeChannel_tableInv hinv h).unknown
  obtain ⟨-, ht⟩ := removeChannel_cases h
  rcases takeOut_cases ht with ⟨-, hp, -⟩ | ⟨-, last, c₁, -, -, hp, -⟩
  · rw [hp]
    exact Finmap.lookup_erase _ _
  · rw [hp]
    exact Finmap.lookup_erase _ _

/-- A registered channel whose entry shows that it has no interest can be
removed, and is then forgotten. -/
theorem removeChannel_registered (hinv : TableInv p m)
    (h : Registered p m c) (hshown : Shown p m c)
    (hnone : (m c).isNoneEvent = true) :
    Holds (p.removeChannel m c) fun r => Unknown r.1 (m c).fd := by
  obtain ⟨pfd, hpfd, hevents, hoff⟩ := hshown
  have hzero : (m c).events = 0#32 := beq_iff_eq.1 hnone
  have hentry : p.entryAt (m c).index .removeIndex
      = .ok ((m c).index.toNat, pfd) := by
    unfold entryAt
    rw [if_pos (hinv.own _ _ h).2, hpfd]
  have hok : ∃ r, p.removeChannel m c = .ok r := by
    unfold removeChannel
    simp only
    rw [require_bind h.ne_none, require_bind h.known, require_bind hnone,
      hentry, ok_bind, require_bind ⟨hoff hnone, by
        rw [hevents, hzero]
        decide⟩]
    exact takeOut_ok hinv h
  obtain ⟨r, hr⟩ := hok
  exact ⟨r, hr, removeChannel_unknown hinv hr⟩

-- ------------------------------------------------------- other channels

/-- A call for the channel `c` leaves the other channels' descriptors and
interests alone, and it leaves them their entries, if not their
positions; the descriptor was free, or the channel's own. -/
structure Elsewhere (p : PollPoller) (m : ChannelMem) (c : Nat)
    (p' : PollPoller) (m' : ChannelMem) : Prop where
  channels : ∀ fd, fd ≠ (m c).fd →
    Finmap.lookup fd p'.channels = Finmap.lookup fd p.channels
  frame : ∀ c', (m' c').fd = (m c').fd ∧ (m' c').events = (m c').events
  entry : ∀ c', Registered p m c' → c' ≠ c →
    p'.pollfds[(m' c').index.toNat]? = p.pollfds[(m c').index.toNat]?
  fresh : ∀ c', (m c').index < 0 → c' ≠ c → (m' c').index = (m c').index
  own : ∀ c', Finmap.lookup (m c).fd p.channels = some c' → c' = c

theorem Elsewhere.registered (he : Elsewhere p m c p' m')
    (h : Registered p m c') (hne : c' ≠ c) : Registered p' m' c' := by
  have hfd : (m c').fd ≠ (m c).fd := by
    intro heq
    exact hne (he.own c' (heq ▸ h.known))
  unfold Registered
  rw [(he.frame c').1, he.channels _ hfd]
  exact h

theorem Elsewhere.shown (he : Elsewhere p m c p' m')
    (hreg : Registered p m c') (h : Shown p m c') (hne : c' ≠ c) :
    Shown p' m' c' := by
  obtain ⟨hfd, hevents⟩ := he.frame c'
  obtain ⟨pfd, hpfd, hshow, hoff⟩ := h
  refine ⟨pfd, ?_, ?_, fun hnone => ?_⟩
  · rw [he.entry c' hreg hne]
    exact hpfd
  · rw [hevents]
    exact hshow
  · rw [hfd]
    apply hoff
    unfold Channel.isNoneEvent at hnone ⊢
    rw [← hevents]
    exact hnone

theorem UpdateChannel_elsewhere (hinv : TableInv p m)
    (h : p.UpdateChannel m c = .ok (p', m')) : Elsewhere p m c p' m' := by
  rcases UpdateChannel_cases h with ⟨-, hfresh, rfl, rfl⟩
    | ⟨-, hreg, pfd, hpfd, rfl, rfl⟩
  · refine ⟨fun fd hfd => Finmap.lookup_insert_of_ne _ hfd,
      fun c' => setIndex_frame .., fun c' hreg hne => ?_, fun c' _ hne => ?_,
      fun c' hc => ?_⟩
    · rw [setIndex_of_ne _ hne]
      exact List.getElem?_append_left (hinv.index_lt hreg)
    · rw [setIndex_of_ne _ hne]
    · rw [hfresh] at hc
      cases hc
  · refine ⟨fun _ _ => rfl, fun _ => ⟨rfl, rfl⟩, fun c' hreg' hne => ?_,
      fun _ _ _ => rfl, fun c' hc => ?_⟩
    · exact List.getElem?_set_ne (hinv.index_ne hreg hreg' hne).symm
    · rw [hreg.known] at hc
      exact (Option.some.inj hc).symm

theorem removeChannel_elsewhere (hinv : TableInv p m)
    (h : p.removeChannel m c = .ok (p', m')) : Elsewhere p m c p' m' := by
  obtain ⟨hreg, h⟩ := removeChannel_cases h
  have hown : ∀ c', Finmap.lookup (m c).fd p.channels = some c' → c' = c := by
    intro c' hc
    rw [hreg.known] at hc
    exact (Option.some.inj hc).symm
  rcases takeOut_cases h with ⟨hidx, rfl, rfl⟩
    | ⟨hidx, last, c₁, hlast, hc₁, rfl, rfl⟩
  · refine ⟨fun fd hfd => Finmap.lookup_erase_ne hfd, fun _ => ⟨rfl, rfl⟩,
      fun c' hreg' hne => ?_, fun _ _ _ => rfl, hown⟩
    have hlt := hinv.index_lt hreg'
    have hne' := hinv.index_ne hreg hreg' hne
    simp only at hidx
    show p.pollfds.dropLast[_]? = _
    rw [List.getElem?_dropLast, if_pos (by omega)]
  · obtain ⟨hlastne, hc₁'⟩ := lookup_of_erase hc₁
    have hlen := hinv.index_lt hreg
    simp only at hidx hlast
    have hidx₁ := (hinv.own _ _ hc₁').2
    -- the entry that is moved was the last one
    obtain ⟨hreg₁, hpos₁⟩ := hinv.index_of_entry hlast hc₁'
    refine ⟨fun fd hfd => Finmap.lookup_erase_ne hfd,
      fun c' => setIndex_frame .., fun c' hreg' hne => ?_, fun c' hneg hne => ?_,
      hown⟩
    · show (DenseTable.swapRemove p.pollfds _ last)[_]? = _
      rw [getElem?_swapRemove (by omega)]
      by_cases hcc : c' = c₁
      · subst hcc
        rw [setIndex_self, hpos₁, hlast]
        simp only [Int.toNat_natCast]
        rw [if_pos (by omega), if_pos trivial]
      · have hlt := hinv.index_lt hreg'
        have hne' := hinv.index_ne hreg hreg' hne
        have hne₁ := hinv.index_ne hreg₁ hreg' hcc
        rw [setIndex_of_ne _ hcc, if_pos (by omega), if_neg hne']
    · refine congrArg Channel.index (setIndex_of_ne _ ?_)
      intro heq
      subst heq
      omega

end PollPoller

end Cobra
