/-
Which entries of `PollPoller` are on.

An entry is on if its descriptor is stored as it is, and off if it is
stored as `-fd - 1`, which poll(2) ignores. `UpdateChannel` makes a new
entry on, and switches an old one off when the interest is empty. That
follows the interest but for two calls: a first update with an empty
interest, which leaves the entry on, and an update that gives a
registered channel its interest back, which leaves the entry off.

`KeepsSign` is every call but these two. As long as it is met the entries
follow the interests (`Signed.step`), and the first call that does not
meet it leaves an entry that does not (`Signed.keeps`): `signed_iff`.
-/
import Cobra.Proofs.PollRun

namespace Cobra

open Machine ChannelMem PollPoller

namespace PollRun

variable {fds : Nat ↪ Nat} {s s' : PollRun} {c : Nat} {op : InterestOp}

/-- The calls after which the entries still follow the interests: not a
first update with an empty interest, and not one that gives a registered
channel without interest an interest. -/
def KeepsSign (s : PollRun) : PollAct → Prop
  | .call (.interest c op) =>
      ((s.mem c).index < 0 → (op.apply (s.mem c)).events ≠ kNoneEvent)
        ∧ (Registered s.poller s.mem c → (s.mem c).events = kNoneEvent →
          (op.apply (s.mem c)).events = kNoneEvent)
  | .call (.remove _) => True
  | .poll _ => True

/-- A sound state whose entries follow the interests. -/
structure Signed (fds : Nat ↪ Nat) (s : PollRun) : Prop where
  sound : Sound fds s
  sign : Follows HasSign s.poller s.mem

theorem signed_create : Signed fds (create fds) where
  sound := sound_create
  sign := fun c hreg => by cases hreg

theorem Signed.step (hs : Signed fds s) {a : PollAct} (ha : KeepsSign s a)
    (hok : s.step a = .ok s') : Signed fds s' := by
  refine ⟨hs.sound.step hok, ?_⟩
  match a with
  | .call (.interest c op) =>
      apply hs.sound.follows_interest hs.sign hok
      obtain ⟨-, hfd, hevents, pfd, hpfd, -, hsign⟩ :=
        hs.sound.interest_entry hok
      refine ⟨pfd, hpfd, ?_⟩
      unfold HasSign
      rcases hsign with ⟨hneg, hon⟩ | ⟨hreg, old, hold, hpfd⟩
      · rw [hon, hfd, if_neg]
        rw [hevents]
        exact ha.1 hneg
      · rw [hpfd, hfd]
        split
        next => rfl
        next hsome =>
          -- the old entry was on already
          obtain ⟨old', hold', hsign⟩ := hs.sign c hreg
          rw [hold] at hold'
          cases hold'
          unfold HasSign at hsign
          rw [hsign, if_neg]
          rw [hevents] at hsome
          exact fun hnone => hsome (ha.2 hreg hnone)
  | .call (.remove c) => exact hs.sound.follows_remove hs.sign hok
  | .poll answer => exact hs.sound.follows_poll hs.sign hok

-- ----------------------------------------------- calls that do not fail

/-- A channel that was never updated is not in the map. -/
theorem Sound.lookup_new (hs : Sound fds s) (hneg : (s.mem c).index < 0) :
    Finmap.lookup (s.mem c).fd s.poller.channels = none := by
  cases hc : Finmap.lookup (s.mem c).fd s.poller.channels with
  | none => rfl
  | some c' =>
      have hcc := hs.fd_inj (hs.table.own _ _ hc).1
      exact absurd hcc (hs.table.ne_of_neg hneg hc)

theorem Sound.interest_new (hs : Sound fds s) (op : InterestOp)
    (hneg : (s.mem c).index < 0) :
    ∃ s', s.step (.call (.interest c op)) = .ok s' := by
  obtain ⟨hfd, hidx⟩ :=
    setEvents_frame s.mem c c (op.apply (s.mem c)).events
  have hok : ∃ r, s.poller.UpdateChannel (s.mem.interest c op) c = .ok r := by
    unfold UpdateChannel ChannelMem.interest
    simp only
    rw [if_pos (by rw [hidx]; exact hneg),
      require_bind (by rw [hfd]; exact hs.lookup_new hneg)]
    exact ⟨_, rfl⟩
  obtain ⟨r, hr⟩ := hok
  exact ⟨{ s with poller := r.1, mem := r.2 }, by
    simp only [PollRun.step, hr, ok_bind]⟩

theorem Sound.interest_registered (hs : Sound fds s) (op : InterestOp)
    (hreg : Registered s.poller s.mem c) :
    ∃ s', s.step (.call (.interest c op)) = .ok s' := by
  obtain ⟨r, hr, -⟩ := UpdateChannel_registered
    (hs.table.setEvents c (op.apply (s.mem c)).events) (hreg.setEvents c _)
  have hr' : s.poller.UpdateChannel (s.mem.interest c op) c = .ok r := hr
  exact ⟨{ s with poller := r.1, mem := r.2 }, by
    simp only [PollRun.step, hr', ok_bind]⟩

/-- The entry an update leaves, when it follows the interest. -/
theorem Signed.interest_sign (hs : Signed fds s)
    (hok : s.step (.call (.interest c op)) = .ok s')
    (h : Follows HasSign s'.poller s'.mem) :
    ((s.mem c).index < 0 ∧ (op.apply (s.mem c)).events ≠ kNoneEvent)
      ∨ (Registered s.poller s.mem c ∧ ((s.mem c).events = kNoneEvent →
        (op.apply (s.mem c)).events = kNoneEvent)) := by
  obtain ⟨hreg', hfd, hevents, pfd, hpfd, -, hsign⟩ :=
    hs.sound.interest_entry hok
  obtain ⟨pfd', hpfd', hsign'⟩ := h c hreg'
  rw [hpfd] at hpfd'
  cases hpfd'
  unfold HasSign at hsign'
  rw [hfd] at hsign'
  rcases hsign with ⟨hneg, hon⟩ | ⟨hreg, old, hold, hoff⟩
  · refine .inl ⟨hneg, fun hnone => ?_⟩
    rw [hevents, if_pos hnone] at hsign'
    omega
  · refine .inr ⟨hreg, fun hnone => ?_⟩
    by_contra hsome
    obtain ⟨old', hold', hsignold⟩ := hs.sign c hreg
    rw [hold] at hold'
    cases hold'
    unfold HasSign at hsignold
    rw [if_pos hnone] at hsignold
    rw [hevents, if_neg hsome] at hsign' hoff
    omega

/-- A call that leaves the entries following the interests is one that
`KeepsSign` allows. -/
theorem Signed.keeps (hs : Signed fds s) {a : PollAct}
    (h : ∀ s', s.step a = .ok s' → Follows HasSign s'.poller s'.mem) :
    KeepsSign s a := by
  match a with
  | .call (.interest c op) =>
      refine ⟨fun hneg => ?_, fun hreg => ?_⟩
      · obtain ⟨s', hok⟩ := hs.sound.interest_new op hneg
        rcases hs.interest_sign hok (h s' hok) with ⟨-, hsome⟩ | ⟨hreg, -⟩
        · exact hsome
        · have hidx := (hs.sound.table.own _ _ hreg).2
          omega
      · obtain ⟨s', hok⟩ := hs.sound.interest_registered op hreg
        rcases hs.interest_sign hok (h s' hok) with ⟨hneg, -⟩ | ⟨-, hnone⟩
        · have hidx := (hs.sound.table.own _ _ hreg).2
          omega
        · exact hnone
  | .call (.remove c) => trivial
  | .poll answer => trivial

/-- The entries follow the interests after every call, exactly if no
first update has an empty interest and no update gives a registered
channel without interest an interest. -/
theorem signed_iff (fds : Nat ↪ Nat) (acts : List PollAct) :
    (∀ pre t, pre <+: acts → run PollRun.step (create fds) pre = .ok t →
      Follows HasSign t.poller t.mem)
      ↔ Along PollRun.step KeepsSign (create fds) acts := by
  have hcreate : Signed fds (create fds) := signed_create
  apply (reached_iff
    (P := fun t : PollRun => Follows HasSign t.poller t.mem)
    hcreate.sign).trans
  apply along_congr (I := Signed fds) _ _ hcreate
  · intro s a hs
    exact ⟨hs.keeps, fun ha s' hok => (hs.step ha hok).sign⟩
  · intro s a s' hs ha hok
    exact hs.step ha hok

/-- The channel 7 loses its interest and gets it back. -/
def toggled : List PollAct :=
  [.call (.interest 7 .enableReading), .call (.interest 7 .disableAll),
    .call (.interest 7 .enableReading)]

/-- A channel that gets its interest back is not polled again. -/
theorem reenabled_stays_off : ∃ s,
    run PollRun.step (create (.refl Nat)) toggled = .ok s
      ∧ Registered s.poller s.mem 7 ∧ (s.mem 7).events = kReadEvent
      ∧ s.poller.pollfds.map PollFd.fd = [-8]
      ∧ ¬ Follows HasSign s.poller s.mem := by
  obtain ⟨s, hrun, hview⟩ := map_ok_inv
    (g := fun s : PollRun => (Finmap.lookup (s.mem 7).fd s.poller.channels,
      s.mem 7, s.poller.pollfds))
    (c := (some 7, ⟨7, kReadEvent, 0, 0⟩, [⟨-8, 3, 0⟩]))
    (show (run PollRun.step (create (.refl Nat)) toggled).map _ = .ok _ by
      decide +kernel)
  obtain ⟨hreg, hmem, hpfds⟩ := Prod.mk.inj hview |>.imp_right Prod.mk.inj
  refine ⟨s, hrun, hreg, by rw [hmem], by rw [hpfds]; rfl, fun hsign => ?_⟩
  obtain ⟨pfd, hpfd, hfd⟩ := hsign 7 hreg
  rw [hpfds, hmem] at hpfd
  cases hpfd
  rw [hmem] at hfd
  revert hfd
  unfold HasSign
  decide

end PollRun

end Cobra
