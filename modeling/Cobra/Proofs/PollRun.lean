/-
Runs of one `PollPoller`: the array and the map stay in step, and a poll
dispatches exactly the channels with something to handle.

# The table

`Sound` is kept by every call and every poll. The positions are
`TableInv`; that each entry has its channel's interest is `Follows`, for
a relation between an entry and its channel that neither a removal nor a
poll can break. An update is the only call that can, and `interest_entry`
says what it makes of its own channel's entry.

# Dispatch

`fillFrom` is a loop with a counter that may stop it early. `fillFrom_eq`
is the loop without the counter: the entries that fired, each with its
channel (`hits`), stored in the channels and appended. The entries that
fired are on, so their descriptors are the table's keys, which are in the
map and without duplicates.
-/
import Cobra.PollRun
import Cobra.Proofs.PollerRun

namespace Cobra

open Machine ChannelMem

-- ===================================================== storing revents

namespace ChannelMem

variable {m : ChannelMem} {c c' : Nat}

theorem setRevents_self (m : ChannelMem) (c : Nat) (revents : BitVec 32) :
    m.setRevents c revents c = { m c with revents := revents } :=
  Function.update_self ..

theorem setRevents_of_ne (revents : BitVec 32) (h : c' ≠ c) :
    m.setRevents c revents c' = m c' := Function.update_of_ne h ..

/-- The two memories differ in `revents_` only. -/
def SameInterest (m m' : ChannelMem) : Prop :=
  ∀ c, (m' c).fd = (m c).fd ∧ (m' c).events = (m c).events
    ∧ (m' c).index = (m c).index

theorem sameInterest_setRevents (m : ChannelMem) (c : Nat)
    (revents : BitVec 32) : SameInterest m (m.setRevents c revents) := by
  intro c'
  by_cases h : c' = c
  · subst h
    rw [setRevents_self]
    exact ⟨rfl, rfl, rfl⟩
  · rw [setRevents_of_ne revents h]
    exact ⟨rfl, rfl, rfl⟩

theorem SameInterest.trans {m₁ m₂ m₃ : ChannelMem} (h : SameInterest m₁ m₂)
    (h' : SameInterest m₂ m₃) : SameInterest m₁ m₃ := by
  intro c
  obtain ⟨hfd, hevents, hindex⟩ := h c
  obtain ⟨hfd', hevents', hindex'⟩ := h' c
  exact ⟨hfd'.trans hfd, hevents'.trans hevents, hindex'.trans hindex⟩

/-- Each entry's `revents` are stored in its channel. -/
def store (m : ChannelMem) (hits : List (Nat × PollFd)) : ChannelMem :=
  hits.foldl (fun m hit => m.setRevents hit.1 (hit.2.revents.signExtend 32)) m

theorem store_cons (m : ChannelMem) (hit : Nat × PollFd)
    (hits : List (Nat × PollFd)) : m.store (hit :: hits)
      = (m.setRevents hit.1 (hit.2.revents.signExtend 32)).store hits := rfl

theorem sameInterest_store (m : ChannelMem) (hits : List (Nat × PollFd)) :
    SameInterest m (m.store hits) := by
  induction hits generalizing m with
  | nil => exact fun c => ⟨rfl, rfl, rfl⟩
  | cons hit hits ih =>
      rw [store_cons]
      exact (sameInterest_setRevents m hit.1 _).trans (ih _)

theorem store_of_not_mem {hits : List (Nat × PollFd)}
    (h : c ∉ hits.map Prod.fst) : m.store hits c = m c := by
  induction hits generalizing m with
  | nil => rfl
  | cons hit hits ih =>
      rw [List.map_cons, List.mem_cons, not_or] at h
      rw [store_cons, ih h.2, setRevents_of_ne _ h.1]

theorem store_of_mem {hits : List (Nat × PollFd)} {pfd : PollFd}
    (hnodup : (hits.map Prod.fst).Nodup) (h : (c, pfd) ∈ hits) :
    m.store hits c = { m c with revents := pfd.revents.signExtend 32 } := by
  induction hits generalizing m with
  | nil => cases h
  | cons hit hits ih =>
      rw [List.map_cons, List.nodup_cons] at hnodup
      rw [store_cons]
      rcases List.mem_cons.1 h with rfl | hmem
      · rw [store_of_not_mem hnodup.1, setRevents_self]
      · have hne : c ≠ hit.1 := by
          rintro rfl
          exact hnodup.1 (List.mem_map.2 ⟨_, hmem, rfl⟩)
        rw [ih hnodup.2 hmem, setRevents_of_ne _ hne]

end ChannelMem

namespace PollPoller

variable {p q : PollPoller} {m m' : ChannelMem} {c : Nat}
  {channels : ChannelMap} {l : List PollFd}

-- ============================================================ the loop

/-- The entries that fired, each with its channel. -/
def hits (channels : ChannelMap) (l : List PollFd) : List (Nat × PollFd) :=
  (l.filter PollFd.fired).filterMap fun pfd =>
    (find channels pfd.fd).map fun c => (c, pfd)

theorem mem_hits {pfd : PollFd} : (c, pfd) ∈ hits channels l
    ↔ pfd ∈ l ∧ pfd.fired = true ∧ find channels pfd.fd = some c := by
  unfold hits
  rw [List.mem_filterMap]
  constructor
  · rintro ⟨pfd', hmem, hfind⟩
    obtain ⟨c', hc', heq⟩ := Option.map_eq_some_iff.1 hfind
    cases heq
    exact ⟨(List.mem_filter.1 hmem).1, (List.mem_filter.1 hmem).2, hc'⟩
  · rintro ⟨hmem, hfired, hfind⟩
    exact ⟨pfd, List.mem_filter.2 ⟨hmem, hfired⟩, by rw [hfind]; rfl⟩

/-- When every entry that fired has a channel, none is left out. -/
theorem hits_snd (hfind : ∀ pfd ∈ l, pfd.fired = true →
      ∃ c, find channels pfd.fd = some c) :
    (hits channels l).map Prod.snd = l.filter PollFd.fired := by
  unfold hits
  rw [List.map_filterMap]
  rw [List.filterMap_congr (g := some)]
  · exact List.filterMap_some
  · intro pfd hmem
    obtain ⟨hmem, hfired⟩ := List.mem_filter.1 hmem
    obtain ⟨c, hc⟩ := hfind pfd hmem hfired
    rw [hc]
    rfl

/-- The loop, if it counts from no fewer than the entries that fired. -/
theorem fillFrom_eq {n : Int} {active : List Nat}
    (hn : (l.countP PollFd.fired : Int) ≤ n)
    (hfind : ∀ pfd ∈ l, pfd.fired = true →
      ∃ c, find channels pfd.fd = some c) :
    fillFrom channels l n m active
      = .ok (m.store (hits channels l),
          active ++ (hits channels l).map Prod.fst) := by
  induction l generalizing n m active with
  | nil =>
      show Except.ok _ = Except.ok _
      rw [show hits channels [] = [] from rfl, List.map_nil, List.append_nil]
      rfl
  | cons pfd pfds ih =>
      have hrest : ∀ pfd ∈ pfds, pfd.fired = true →
          ∃ c, find channels pfd.fd = some c :=
        fun pfd' hmem => hfind pfd' (List.mem_cons_of_mem pfd hmem)
      rw [List.countP_cons] at hn
      unfold fillFrom
      by_cases hfired : pfd.fired = true
      · obtain ⟨c, hc⟩ := hfind pfd List.mem_cons_self hfired
        rw [if_pos hfired] at hn
        have hhits : hits channels (pfd :: pfds)
            = (c, pfd) :: hits channels pfds := by
          unfold hits
          rw [List.filter_cons_of_pos hfired, List.filterMap_cons_some]
          rw [hc]
          rfl
        rw [if_pos (by push_cast at hn; omega), if_pos hfired, hc, hhits]
        simp only
        rw [ih (by push_cast at hn; omega) hrest, store_cons, List.map_cons,
          List.append_assoc, List.singleton_append]
      · have hhits : hits channels (pfd :: pfds) = hits channels pfds := by
          unfold hits
          rw [List.filter_cons_of_neg hfired]
        rw [if_neg hfired, Nat.add_zero] at hn
        rw [if_neg hfired, ih hn hrest, hhits]
        split
        · rfl
        · -- nothing is left to fire
          have hnone : pfds.filter PollFd.fired = [] := by
            apply List.length_eq_zero_iff.1
            rw [← List.countP_eq_length_filter]
            omega
          have hnil : hits channels pfds = [] := by
            unfold hits
            rw [hnone]
            rfl
          rw [hnil, List.map_nil, List.append_nil]
          rfl

-- ========================================================== what poll(2) writes

/-- Entry by entry, the array differs in `revents` only. -/
def SameEntries (l l' : List PollFd) : Prop :=
  l'.map (fun pfd => (pfd.fd, pfd.events))
    = l.map fun pfd => (pfd.fd, pfd.events)

theorem sameEntries_writeRevents (p : PollPoller) (revents : Nat → BitVec 16) :
    SameEntries p.pollfds (p.writeRevents revents).pollfds := by
  unfold SameEntries
  apply List.ext_getElem?
  intro i
  unfold writeRevents
  rw [List.getElem?_map, List.getElem?_map, List.getElem?_mapIdx,
    Option.map_map]
  rfl

/-- The entry at the same position. -/
theorem SameEntries.at {l' : List PollFd} (h : SameEntries l l') {i : Nat}
    {pfd : PollFd} (hpfd : l[i]? = some pfd) :
    ∃ pfd', l'[i]? = some pfd' ∧ pfd'.fd = pfd.fd
      ∧ pfd'.events = pfd.events := by
  have heq := congrArg (·[i]?) h
  simp only [List.getElem?_map, hpfd, Option.map_some] at heq
  obtain ⟨pfd', hpfd', hsame⟩ := Option.map_eq_some_iff.1 heq
  exact ⟨pfd', hpfd', congrArg Prod.fst hsame, congrArg Prod.snd hsame⟩

theorem SameEntries.keys_eq (h : SameEntries p.pollfds q.pollfds) :
    q.keys = p.keys := by
  have hdec : ∀ l : List PollFd, l.map PollFd.decode
      = (l.map fun pfd => (pfd.fd, pfd.events)).map fun x =>
        if x.1 < 0 then (-x.1 - 1).toNat else x.1.toNat := by
    intro l
    rw [List.map_map]
    rfl
  unfold keys
  rw [hdec, hdec, h]

/-- The positions do not depend on `revents`. -/
theorem TableInv.same (h : TableInv p m) (hchan : q.channels = p.channels)
    (hsame : SameEntries p.pollfds q.pollfds) (hmem : SameInterest m m') :
    TableInv q m' :=
  h.congr hchan hsame.keys_eq (fun c => (hmem c).1) fun c => (hmem c).2.2

/-- An entry that is off has nothing to report. -/
theorem writeRevents_off {revents : Nat → BitVec 16} {pfd : PollFd}
    (hmem : pfd ∈ (p.writeRevents revents).pollfds) (hoff : pfd.fd < 0) :
    pfd.revents = 0 := by
  unfold writeRevents at hmem
  obtain ⟨i, hi, rfl⟩ := List.mem_mapIdx.1 hmem
  unfold PollFd.writeRevents at hoff ⊢
  exact if_pos hoff

-- ============================================================= dispatch

/-- The channels appended to `activeChannels`, and what they were told:
the registered channels whose entries have positive `revents`, each
once, with those `revents`; all else in memory is as it was. -/
structure Dispatched (p : PollPoller) (m m' : ChannelMem) (new : List Nat) :
    Prop where
  nodup : new.Nodup
  mem : ∀ c, c ∈ new ↔ Registered p m c ∧ ∃ pfd,
    p.pollfds[(m c).index.toNat]? = some pfd ∧ 0 < pfd.revents.toInt
  told : ∀ c ∈ new, ∃ pfd, p.pollfds[(m c).index.toNat]? = some pfd
    ∧ m' c = { m c with revents := pfd.revents.signExtend 32 }
  others : ∀ c, c ∉ new → m' c = m c

/-- The entries that are off have nothing to report. -/
def Quiet (p : PollPoller) : Prop :=
  ∀ pfd ∈ p.pollfds, pfd.fd < 0 → pfd.revents = 0

/-- An entry that fired is on, and its descriptor is found. -/
theorem TableInv.find_fired (h : TableInv p m) (hq : Quiet p) {i : Nat}
    {pfd : PollFd} (hpfd : p.pollfds[i]? = some pfd)
    (hfired : pfd.fired = true) :
    ∃ c, find p.channels pfd.fd = some c ∧ Registered p m c
      ∧ (m c).index.toNat = i := by
  have hon : 0 ≤ pfd.fd := by
    by_contra hneg
    have hzero := hq pfd (List.mem_of_getElem? hpfd) (by omega)
    unfold PollFd.fired at hfired
    rw [hzero] at hfired
    revert hfired
    decide
  have hdec : pfd.decode = pfd.fd.toNat := by
    unfold PollFd.decode
    rw [if_neg (by omega)]
  obtain ⟨c, hc, -⟩ := Option.map_eq_some_iff.1
    ((h.table _ _).2 (keys_at hpfd))
  obtain ⟨hreg, hidx⟩ := h.index_of_entry hpfd hc
  refine ⟨c, ?_, hreg, hidx⟩
  unfold find
  rw [if_pos hon, ← hdec]
  exact hc

/-- The channel found for an entry that fired is the entry's. -/
theorem TableInv.mem_hits_iff (h : TableInv p m) (hq : Quiet p)
    {pfd : PollFd} : (c, pfd) ∈ hits p.channels p.pollfds
      ↔ Registered p m c ∧ p.pollfds[(m c).index.toNat]? = some pfd
        ∧ pfd.fired = true := by
  rw [mem_hits]
  constructor
  · rintro ⟨hmem, hfired, hfind⟩
    obtain ⟨i, hi⟩ := List.mem_iff_getElem?.1 hmem
    obtain ⟨c', hfind', hreg, hidx⟩ := h.find_fired hq hi hfired
    rw [hfind] at hfind'
    cases hfind'
    refine ⟨hreg, ?_, hfired⟩
    rw [hidx]
    exact hi
  · rintro ⟨hreg, hpfd, hfired⟩
    obtain ⟨c', hfind, hreg', hidx⟩ := h.find_fired hq hpfd hfired
    have hcc : c' = c := by
      by_contra hne
      exact h.index_ne hreg hreg' hne hidx
    rw [hcc] at hfind
    exact ⟨List.mem_of_getElem? hpfd, hfired, hfind⟩

theorem TableInv.finds (h : TableInv p m) (hq : Quiet p) :
    ∀ pfd ∈ p.pollfds, pfd.fired = true →
      ∃ c, find p.channels pfd.fd = some c := by
  intro pfd hmem hfired
  obtain ⟨i, hi⟩ := List.mem_iff_getElem?.1 hmem
  obtain ⟨c, hc, -⟩ := h.find_fired hq hi hfired
  exact ⟨c, hc⟩

/-- No channel is found twice: the channels' descriptors are those of
the entries. -/
theorem TableInv.hits_nodup (h : TableInv p m) (hq : Quiet p) :
    ((hits p.channels p.pollfds).map Prod.fst).Nodup := by
  apply List.Nodup.of_map fun c => (m c).fd
  have hfds : ((hits p.channels p.pollfds).map Prod.fst).map (fun c => (m c).fd)
      = ((hits p.channels p.pollfds).map Prod.snd).map PollFd.decode := by
    rw [List.map_map, List.map_map]
    apply List.map_congr_left
    rintro ⟨c, pfd⟩ hmem
    obtain ⟨hreg, hpfd, -⟩ := (h.mem_hits_iff hq).1 hmem
    obtain ⟨pfd', hpfd', hdec⟩ := h.entry hreg
    rw [hpfd] at hpfd'
    cases hpfd'
    exact hdec.symm
  rw [hfds, hits_snd (h.finds hq)]
  exact (List.filter_sublist.map PollFd.decode).nodup h.table.nodup

/-- More bits are set than are positive. -/
theorem countP_fired_le (p : PollPoller) :
    p.pollfds.countP PollFd.fired ≤ p.numEvents := by
  apply List.countP_mono_left
  intro pfd _ hfired
  rw [bne_iff_ne]
  intro hzero
  unfold PollFd.fired at hfired
  rw [hzero] at hfired
  revert hfired
  decide

/-- `fillActiveChannels`, on an array that poll(2) has just written. -/
theorem TableInv.fillActiveChannels (h : TableInv p m) (hq : Quiet p)
    (active : List Nat) : ∃ m' new,
      p.fillActiveChannels m p.numEvents active = .ok (m', active ++ new)
        ∧ SameInterest m m' ∧ Dispatched p m m' new := by
  refine ⟨m.store (hits p.channels p.pollfds),
    (hits p.channels p.pollfds).map Prod.fst, ?_, sameInterest_store m _, ?_⟩
  · apply fillFrom_eq _ (h.finds hq)
    exact_mod_cast countP_fired_le p
  · refine ⟨h.hits_nodup hq, fun c => ?_, fun c hc => ?_,
      fun c hc => store_of_not_mem hc⟩
    · rw [List.mem_map]
      constructor
      · rintro ⟨⟨c, pfd⟩, hmem, rfl⟩
        obtain ⟨hreg, hpfd, hfired⟩ := (h.mem_hits_iff hq).1 hmem
        exact ⟨hreg, pfd, hpfd, of_decide_eq_true hfired⟩
      · rintro ⟨hreg, pfd, hpfd, hpos⟩
        have hfired : pfd.fired = true := decide_eq_true hpos
        exact ⟨(c, pfd), (h.mem_hits_iff hq).2 ⟨hreg, hpfd, hfired⟩, rfl⟩
    · obtain ⟨⟨c, pfd⟩, hmem, rfl⟩ := List.mem_map.1 hc
      obtain ⟨-, hpfd, -⟩ := (h.mem_hits_iff hq).1 hmem
      exact ⟨pfd, hpfd, store_of_mem (h.hits_nodup hq) hmem⟩

-- ====================================================== entries and channels

/-- A relation between an entry and its channel: the entry's `fd` and
`events`, the channel's descriptor and interest. -/
abbrev EntryRel : Type := Int → BitVec 16 → Nat → BitVec 32 → Prop

/-- The entry of the channel is in the relation to it. -/
def EntryIs (Q : EntryRel) (p : PollPoller) (m : ChannelMem) (c : Nat) :
    Prop :=
  ∃ pfd, p.pollfds[(m c).index.toNat]? = some pfd
    ∧ Q pfd.fd pfd.events (m c).fd (m c).events

/-- Every registered channel's entry is. -/
def Follows (Q : EntryRel) (p : PollPoller) (m : ChannelMem) : Prop :=
  ∀ c, Registered p m c → EntryIs Q p m c

variable {Q : EntryRel} {p' : PollPoller} {c' : Nat}

theorem Elsewhere.entryIs (he : Elsewhere p m c p' m')
    (hreg : Registered p m c') (hne : c' ≠ c) (h : EntryIs Q p m c') :
    EntryIs Q p' m' c' := by
  obtain ⟨pfd, hpfd, hQ⟩ := h
  refine ⟨pfd, ?_, ?_⟩
  · rw [he.entry c' hreg hne]
    exact hpfd
  · rw [(he.frame c').1, (he.frame c').2]
    exact hQ

/-- After a call for `c`, only `c` can have an entry that is not in the
relation. -/
theorem Elsewhere.follows (he : Elsewhere p m c p' m')
    (hfd : ∀ c', (m c').fd = (m c).fd → c' = c)
    (h : ∀ c', c' ≠ c → Registered p m c' → EntryIs Q p m c')
    (hself : Registered p' m' c → EntryIs Q p' m' c) : Follows Q p' m' := by
  intro c' hreg
  by_cases hne : c' = c
  · subst hne
    exact hself hreg
  · have hreg' : Registered p m c' := by
      unfold Registered at hreg ⊢
      rw [(he.frame c').1, he.channels _ (fun heq => hne (hfd c' heq))] at hreg
      exact hreg
    exact he.entryIs hreg' hne (h c' hne hreg')

theorem Follows.same (h : Follows Q p m) (hchan : q.channels = p.channels)
    (hsame : SameEntries p.pollfds q.pollfds) (hmem : SameInterest m m') :
    Follows Q q m' := by
  intro c hreg
  obtain ⟨hfd, hevents, hindex⟩ := hmem c
  unfold Registered at hreg
  rw [hchan, hfd] at hreg
  obtain ⟨pfd, hpfd, hQ⟩ := h c hreg
  obtain ⟨pfd', hpfd', hfd', hevents'⟩ := hsame.at hpfd
  refine ⟨pfd', ?_, ?_⟩
  · rw [hindex]
    exact hpfd'
  · rw [hfd', hevents', hfd, hevents]
    exact hQ

/-- The entry has the interest, as a `short`. -/
def HasEvents : EntryRel := fun _ events _ mask => events = mask.truncate 16

/-- The entry is on if there is an interest, and off if there is none. -/
def HasSign : EntryRel := fun fd _ cfd mask =>
  fd = if mask = kNoneEvent then -(cfd : Int) - 1 else cfd

end PollPoller

-- ================================================================= runs

namespace PollRun

open PollPoller

variable {fds : Nat ↪ Nat} {s s' : PollRun} {c : Nat} {op : InterestOp}

/-- What every run keeps. -/
structure Sound (fds : Nat ↪ Nat) (s : PollRun) : Prop where
  table : s.poller.TableInv s.mem
  fd : ∀ c, (s.mem c).fd = fds c
  mask : ∀ c, IsInterest (s.mem c).events
  events : Follows HasEvents s.poller s.mem

theorem sound_create : Sound fds (create fds) where
  table := ⟨fun fd c hc => (by cases hc), DenseTable.indexes_nil⟩
  fd := fun _ => rfl
  mask := fun _ => .inl rfl
  events := fun c hreg => by cases hreg

theorem Sound.fd_inj (h : Sound fds s) {c' : Nat}
    (heq : (s.mem c').fd = (s.mem c).fd) : c' = c := by
  rw [h.fd, h.fd] at heq
  exact fds.injective heq

-- ------------------------------------------------------------ the steps

theorem interest_inv (h : step s (.call (.interest c op)) = .ok s') :
    s.poller.UpdateChannel (s.mem.interest c op) c = .ok (s'.poller, s'.mem) := by
  obtain ⟨⟨p, m⟩, hup, hok⟩ := bind_ok_inv h
  cases hok
  exact hup

theorem remove_inv (h : step s (.call (.remove c)) = .ok s') :
    s.poller.removeChannel s.mem c = .ok (s'.poller, s'.mem) := by
  obtain ⟨⟨p, m⟩, hrem, hok⟩ := bind_ok_inv h
  cases hok
  exact hrem

/-- A poll changes `revents` only, in the array and in the channels. -/
theorem Sound.poll_inv (hs : Sound fds s) {answer : Option (Nat → BitVec 16)}
    (h : step s (.poll answer) = .ok s') :
    s'.poller.channels = s.poller.channels
      ∧ SameEntries s.poller.pollfds s'.poller.pollfds
      ∧ SameInterest s.mem s'.mem := by
  obtain ⟨⟨p, m, active⟩, hpoll, hok⟩ := bind_ok_inv h
  cases hok
  cases answer with
  | none =>
      cases hpoll
      exact ⟨rfl, rfl, fun c => ⟨rfl, rfl, rfl⟩⟩
  | some revents =>
      have hentries := sameEntries_writeRevents s.poller revents
      unfold PollPoller.poll at hpoll
      simp only at hpoll
      split at hpoll
      · obtain ⟨⟨m₁, active₁⟩, hfill, hok⟩ := bind_ok_inv hpoll
        cases hok
        have htab : (s.poller.writeRevents revents).TableInv s.mem :=
          hs.table.same rfl hentries fun c => ⟨rfl, rfl, rfl⟩
        obtain ⟨m', new, hfill', hsame, -⟩ :=
          htab.fillActiveChannels (fun _ => writeRevents_off) []
        rw [hfill] at hfill'
        cases hfill'
        exact ⟨rfl, hentries, hsame⟩
      · cases hpoll
        exact ⟨rfl, hentries, fun c => ⟨rfl, rfl, rfl⟩⟩

/-- What an update makes of its own channel: the entry has the new
interest; it is on if it is new, and otherwise goes off with the
interest and does not come on with it. -/
theorem Sound.interest_entry (hs : Sound fds s)
    (h : step s (.call (.interest c op)) = .ok s') :
    Registered s'.poller s'.mem c ∧ (s'.mem c).fd = (s.mem c).fd
      ∧ (s'.mem c).events = (op.apply (s.mem c)).events
      ∧ ∃ pfd, s'.poller.pollfds[(s'.mem c).index.toNat]? = some pfd
        ∧ pfd.events = (s'.mem c).events.truncate 16
        ∧ (((s.mem c).index < 0 ∧ pfd.fd = (s.mem c).fd)
          ∨ (Registered s.poller s.mem c ∧ ∃ old,
            s.poller.pollfds[(s.mem c).index.toNat]? = some old
              ∧ pfd.fd = if (s'.mem c).events = kNoneEvent
                then -((s.mem c).fd : Int) - 1 else old.fd)) := by
  have hself : s.mem.interest c op c
      = { s.mem c with events := (op.apply (s.mem c)).events } :=
    setEvents_self ..
  have htab : s.poller.TableInv (s.mem.interest c op) :=
    hs.table.setEvents c _
  rcases UpdateChannel_cases (interest_inv h) with ⟨hneg, -, hp, hm⟩
    | ⟨-, hreg, old, hold, hp, hm⟩
  · have hc : s'.mem c = { s.mem c with
        events := (op.apply (s.mem c)).events
        index := s.poller.pollfds.length } := by
      rw [hm, setIndex_self, hself]
    rw [hself] at hneg hp
    refine ⟨?_, by rw [hc], by rw [hc],
      ⟨(s.mem c).fd, (op.apply (s.mem c)).events.truncate 16, 0⟩, ?_,
      by rw [hc], .inl ⟨hneg, rfl⟩⟩
    · unfold Registered
      rw [hc, hp]
      exact Finmap.lookup_insert _
    · rw [hc, hp]
      exact List.getElem?_concat_length
  · have hc : s'.mem c
        = { s.mem c with events := (op.apply (s.mem c)).events } := by
      rw [hm, hself]
    have hlt := htab.index_lt hreg
    unfold Registered at hreg
    rw [hself] at hreg hold hp hlt
    refine ⟨?_, by rw [hc], by rw [hc], old.refresh (s'.mem c), ?_, rfl,
      .inr ⟨hreg, old, hold, ?_⟩⟩
    · unfold Registered
      rw [hc, hp]
      exact hreg
    · rw [hc, hp]
      exact List.getElem?_set_self hlt
    · unfold PollFd.refresh Channel.isNoneEvent
      simp only [beq_iff_eq]
      rw [show (s'.mem c).fd = (s.mem c).fd by rw [hc]]

theorem Sound.interest_fd (hs : Sound fds s) (c : Nat) (op : InterestOp)
    (c' : Nat) : (s.mem.interest c op c').fd = fds c' :=
  (setEvents_frame s.mem c c' _).1.trans (hs.fd c')

/-- An update keeps the relation if its own channel's entry is in it. -/
theorem Sound.follows_interest (hs : Sound fds s) {Q : EntryRel}
    (h : Follows Q s.poller s.mem)
    (hok : step s (.call (.interest c op)) = .ok s')
    (hself : EntryIs Q s'.poller s'.mem c) : Follows Q s'.poller s'.mem := by
  have htab : s.poller.TableInv (s.mem.interest c op) :=
    hs.table.setEvents c _
  refine (UpdateChannel_elsewhere htab (interest_inv hok)).follows
    (fun c' heq => ?_) (fun c' hne hreg => ?_) (fun _ => hself)
  · rw [hs.interest_fd, hs.interest_fd] at heq
    exact fds.injective heq
  · have hsame : s.mem.interest c op c' = s.mem c' := setEvents_of_ne _ hne
    unfold Registered at hreg
    unfold EntryIs
    rw [hsame] at hreg ⊢
    exact h c' hreg

/-- A removal keeps it: the channel is not registered any more. -/
theorem Sound.follows_remove (hs : Sound fds s) {Q : EntryRel}
    (h : Follows Q s.poller s.mem)
    (hok : step s (.call (.remove c)) = .ok s') :
    Follows Q s'.poller s'.mem := by
  have hrem := remove_inv hok
  have he := removeChannel_elsewhere hs.table hrem
  refine he.follows (fun c' => hs.fd_inj) (fun c' _ => h c') (fun hreg => ?_)
  have hgone := removeChannel_unknown hs.table hrem
  unfold Registered at hreg
  rw [(he.frame c).1, hgone.1] at hreg
  cases hreg

theorem Sound.follows_poll (hs : Sound fds s) {Q : EntryRel}
    {answer : Option (Nat → BitVec 16)} (h : Follows Q s.poller s.mem)
    (hok : step s (.poll answer) = .ok s') : Follows Q s'.poller s'.mem := by
  obtain ⟨hchan, hentries, hmem⟩ := hs.poll_inv hok
  exact h.same hchan hentries hmem

theorem Sound.step (hs : Sound fds s) {a : PollAct}
    (hok : s.step a = .ok s') : Sound fds s' := by
  match a with
  | .call (.interest c op) =>
      have htab : s.poller.TableInv (s.mem.interest c op) :=
        hs.table.setEvents c _
      have hup := interest_inv hok
      have he := UpdateChannel_elsewhere htab hup
      refine ⟨UpdateChannel_tableInv htab hup, fun c' => ?_, fun c' => ?_,
        hs.follows_interest hs.events hok ?_⟩
      · exact (he.frame c').1.trans (hs.interest_fd c op c')
      · rw [(he.frame c').2]
        exact isInterest_interest hs.mask c op c'
      · obtain ⟨-, -, -, pfd, hpfd, hevents, -⟩ := hs.interest_entry hok
        exact ⟨pfd, hpfd, hevents⟩
  | .call (.remove c) =>
      have hrem := remove_inv hok
      have he := removeChannel_elsewhere hs.table hrem
      refine ⟨removeChannel_tableInv hs.table hrem,
        fun c' => (he.frame c').1.trans (hs.fd c'), fun c' => ?_,
        hs.follows_remove hs.events hok⟩
      rw [(he.frame c').2]
      exact hs.mask c'
  | .poll answer =>
      obtain ⟨hchan, hentries, hmem⟩ := hs.poll_inv hok
      refine ⟨hs.table.same hchan hentries hmem,
        fun c' => (hmem c').1.trans (hs.fd c'), fun c' => ?_,
        hs.follows_poll hs.events hok⟩
      rw [(hmem c').2.1]
      exact hs.mask c'

theorem Sound.run {acts : List PollAct} (h : run PollRun.step s acts = .ok s')
    (hs : Sound fds s) : Sound fds s' :=
  run_inv_all (I := Sound fds) (fun _ _ _ hs hok => hs.step hok) hs h

-- -------------------------------------------------- the table, as it is read

/-- The array and the map are of one size; a registered channel has its
own position in the array, and there an entry for its descriptor, on or
off, with its interest. -/
structure Consistent (p : PollPoller) (m : ChannelMem) : Prop where
  size : p.pollfds.length = p.channels.keys.card
  own : ∀ fd c, Finmap.lookup fd p.channels = some c →
    (m c).fd = fd ∧ 0 ≤ (m c).index ∧ (m c).index < p.pollfds.length
      ∧ ∃ pfd, p.pollfds[(m c).index.toNat]? = some pfd
        ∧ (pfd.fd = fd ∨ pfd.fd = -(fd : Int) - 1)
        ∧ pfd.events.signExtend 32 = (m c).events
  distinct : ∀ fd fd' c c', Finmap.lookup fd p.channels = some c →
    Finmap.lookup fd' p.channels = some c' →
    (m c).index = (m c').index → c = c'

/-- The descriptors in the map are the keys of the table. -/
theorem Sound.size (hs : Sound fds s) :
    s.poller.pollfds.length = s.poller.channels.keys.card := by
  have hkeys : s.poller.keys.toFinset = s.poller.channels.keys := by
    ext fd
    rw [List.mem_toFinset, hs.table.table.mem_iff, Finmap.mem_keys,
      Finmap.mem_iff]
    unfold PollPoller.position
    simp only [Option.map_eq_some_iff]
    constructor
    · rintro ⟨i, c, hc, -⟩
      exact ⟨c, hc⟩
    · rintro ⟨c, hc⟩
      exact ⟨_, c, hc, rfl⟩
  rw [← hkeys, List.toFinset_card_of_nodup hs.table.table.nodup]
  exact (List.length_map _).symm

theorem Sound.consistent (hs : Sound fds s) :
    Consistent s.poller s.mem := by
  have hreg : ∀ {fd c}, Finmap.lookup fd s.poller.channels = some c →
      Registered s.poller s.mem c := by
    intro fd c hc
    unfold Registered
    rw [(hs.table.own fd c hc).1]
    exact hc
  refine ⟨hs.size, fun fd c hc => ?_, fun fd fd' c c' hc hc' heq => ?_⟩
  · obtain ⟨hfd, hidx⟩ := hs.table.own fd c hc
    have hlt := hs.table.index_lt (hreg hc)
    obtain ⟨pfd, hpfd, hevents⟩ := hs.events c (hreg hc)
    obtain ⟨pfd', hpfd', hdec⟩ := hs.table.entry (hreg hc)
    rw [hpfd] at hpfd'
    cases hpfd'
    refine ⟨hfd, hidx, by omega, pfd, hpfd, ?_, ?_⟩
    · exact PollFd.fd_of_decode (hdec.trans hfd)
    · rw [hevents, (hs.mask c).short]
  · by_contra hne
    exact hs.table.index_ne (hreg hc') (hreg hc) hne (by rw [heq])

/-- After any calls and polls that meet the assertions, the array and the
map are consistent; and whatever poll(2) then finds, `fillActiveChannels`
finds every descriptor it looks up, and dispatches exactly the channels
whose entries have positive `revents`, each once. -/
theorem table_and_dispatch (fds : Nat ↪ Nat) {acts : List PollAct}
    (h : run step (create fds) acts = .ok s) :
    Consistent s.poller s.mem
      ∧ ∀ (revents : Nat → BitVec 16) (active : List Nat), ∃ m' new,
        let p := s.poller.writeRevents revents
        p.fillActiveChannels s.mem p.numEvents active = .ok (m', active ++ new)
          ∧ Dispatched p s.mem m' new := by
  have hs := sound_create.run h
  refine ⟨hs.consistent, fun revents active => ?_⟩
  have htab : (s.poller.writeRevents revents).TableInv s.mem :=
    hs.table.same rfl (sameEntries_writeRevents ..) fun c => ⟨rfl, rfl, rfl⟩
  obtain ⟨m', new, hfill, -, hdisp⟩ :=
    htab.fillActiveChannels (fun _ => writeRevents_off) active
  exact ⟨m', new, hfill, hdisp⟩

/-- The channel 5, whose entry is off, is moved to the front when 3 is
removed; 4 stays on. -/
def moved : List PollAct :=
  [.call (.interest 3 .enableReading), .call (.interest 4 .enableReading),
    .call (.interest 5 .enableWriting), .call (.interest 5 .disableAll),
    .call (.interest 3 .disableAll), .call (.remove 3),
    .poll (some fun _ => 1)]

theorem table_and_dispatch_moved : ∃ s,
    run step (create (.refl Nat)) moved = .ok s
      ∧ s.poller.pollfds.map PollFd.fd = [-6, 4] ∧ s.activeChannels = [4]
      ∧ Consistent s.poller s.mem
      ∧ ∀ (revents : Nat → BitVec 16) (active : List Nat), ∃ m' new,
        let p := s.poller.writeRevents revents
        p.fillActiveChannels s.mem p.numEvents active = .ok (m', active ++ new)
          ∧ Dispatched p s.mem m' new := by
  obtain ⟨s, hrun, hs⟩ := map_ok_inv
    (g := fun s : PollRun => (s.poller.pollfds.map PollFd.fd, s.activeChannels))
    (c := ([-6, 4], [4]))
    (show (run step (create (.refl Nat)) moved).map _ = .ok _ by decide +kernel)
  exact ⟨s, hrun, congrArg Prod.fst hs, congrArg Prod.snd hs,
    table_and_dispatch (.refl Nat) hrun⟩

end PollRun

end Cobra
