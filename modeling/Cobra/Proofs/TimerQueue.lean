/-
`timers_` and `activeTimers_` hold the same timers, whatever the order
of insertions, cancellations, expiries and re-arms, whatever the
callbacks do to the queue in the middle of a batch and to whatever time
the clock is set; no assertion of `TimerQueue` fails on the way.

# Two layers

`Consistent` relates the two sets through the heap: an entry of either
names a live timer, and the other set has the entry that the timer's
fields call for. Sizes follow (`Consistent.sizes`), so the size
assertions come for free, and each queue operation has one equation
under it: what it returns, with every assertion discharged.

`LoopInv` places the live timers. Each is active, or fresh (created, its
insertion still to come), or in the batch of the `handleRead` in
progress, and never two of these. That is what an insertion needs to
know: the timer it inserts is in neither set. `step_moves` turns it into
the list of everything one action can do, which is all that the later
modules read.
-/
import Cobra.TimerQueue

namespace Cobra

open Machine

-- ==================================================== order on entries

theorem Entry.lt_def {e e' : Entry} :
    e < e' ↔ e.when_ < e'.when_
      ∨ e.when_ = e'.when_ ∧ e.timer < e'.timer := by
  show e.key < e'.key ↔ _
  rw [Prod.Lex.lt_iff]
  rfl

theorem Entry.when_le_of_le {e e' : Entry} (h : e ≤ e') :
    e.when_ ≤ e'.when_ := by
  rcases lt_or_eq_of_le h with hlt | rfl
  · rcases Entry.lt_def.1 hlt with hw | ⟨hw, -⟩
    · exact hw.le
    · exact hw.le
  · exact le_refl _

/-- Below the sentry of `getExpired` is: due by `now`. -/
theorem Entry.lt_sentry {e : Entry} {now : Timestamp}
    (hp : e.timer < UINTPTR_MAX) :
    e < ⟨now, UINTPTR_MAX⟩ ↔ e.when_ ≤ now := by
  rw [Entry.lt_def]
  constructor
  · intro h
    rcases h with h | ⟨h, -⟩
    · exact h.le
    · exact h.le
  · intro h
    rcases lt_or_eq_of_le h with hlt | heq
    · exact .inl hlt
    · exact .inr ⟨heq, hp⟩

namespace TimerQueue

variable {q q' : TimerQueue}

-- ========================================================= consistency

/-- The timer at `p` is in the queue. -/
def Active (q : TimerQueue) (p : Nat) : Prop :=
  ∃ s, ⟨p, s⟩ ∈ q.activeTimers

/-- The two sets name the same live timers. -/
structure Consistent (q : TimerQueue) : Prop where
  active : ∀ id ∈ q.activeTimers, ∃ t, q.heap id.timer = some t
    ∧ t.sequence = id.sequence ∧ ⟨t.expiration, id.timer⟩ ∈ q.timers
  timers : ∀ e ∈ q.timers, ∃ t, q.heap e.timer = some t
    ∧ t.expiration = e.when_ ∧ ⟨e.timer, t.sequence⟩ ∈ q.activeTimers

theorem consistent_create : Consistent create where
  active := fun _ h => absurd h (OrdSet.not_mem_empty _)
  timers := fun _ h => absurd h (OrdSet.not_mem_empty _)

theorem Consistent.mem_active (h : Consistent q) {id : TimerId} {t : Timer}
    (hid : id ∈ q.activeTimers) (ht : q.heap id.timer = some t) :
    t.sequence = id.sequence ∧ ⟨t.expiration, id.timer⟩ ∈ q.timers := by
  obtain ⟨t', ht', hs, he⟩ := h.active id hid
  rw [ht] at ht'
  cases ht'
  exact ⟨hs, he⟩

theorem Consistent.mem_timers (h : Consistent q) {e : Entry} {t : Timer}
    (he : e ∈ q.timers) (ht : q.heap e.timer = some t) :
    t.expiration = e.when_ ∧ ⟨e.timer, t.sequence⟩ ∈ q.activeTimers := by
  obtain ⟨t', ht', hw, hid⟩ := h.timers e he
  rw [ht] at ht'
  cases ht'
  exact ⟨hw, hid⟩

/-- An active timer is entered with its own sequence. -/
theorem Consistent.active_iff (h : Consistent q) {p : Nat} {t : Timer}
    (ht : q.heap p = some t) :
    Active q p ↔ ⟨p, t.sequence⟩ ∈ q.activeTimers := by
  constructor
  · intro hp
    obtain ⟨s, hs⟩ := hp
    obtain ⟨rfl, -⟩ := h.mem_active hs ht
    exact hs
  · intro hp
    exact ⟨t.sequence, hp⟩

/-- An active timer is live. -/
theorem Consistent.live (h : Consistent q) {p : Nat} (hp : Active q p) :
    ∃ t, q.heap p = some t := by
  obtain ⟨s, hs⟩ := hp
  obtain ⟨t, ht, -⟩ := h.active _ hs
  exact ⟨t, ht⟩

/-- The timers of `timers_` are the active ones. -/
theorem Consistent.active_of_mem (h : Consistent q) {e : Entry}
    (he : e ∈ q.timers) : Active q e.timer := by
  obtain ⟨t, -, -, hid⟩ := h.timers e he
  exact ⟨t.sequence, hid⟩

/-- An address has at most one entry. -/
theorem Consistent.entry_inj (h : Consistent q) {e e' : Entry}
    (he : e ∈ q.timers) (he' : e' ∈ q.timers) (hp : e.timer = e'.timer) :
    e = e' := by
  obtain ⟨t, ht, hw, -⟩ := h.timers e he
  rw [hp] at ht
  obtain ⟨hw', -⟩ := h.mem_timers he' ht
  cases e
  cases e'
  simp only at hp hw hw'
  rw [hp, ← hw, ← hw']

/-- The sizes asserted all over the source are equal. -/
theorem Consistent.sizes (h : Consistent q) : q.sizesEqual := by
  refine OrdSet.size_eq_of_bij (f := Entry.timer) (g := TimerId.timer)
    (fun e he e' he' hp => h.entry_inj he he' hp) ?_ ?_
  · intro id hid id' hid' hp
    obtain ⟨t, ht, hs, -⟩ := h.active id hid
    have hp' : id.timer = id'.timer := hp
    rw [hp'] at ht
    obtain ⟨hs', -⟩ := h.mem_active hid' ht
    cases id
    cases id'
    simp only at hp' hs hs'
    rw [hp', ← hs, ← hs']
  · intro p
    constructor
    · intro hp
      obtain ⟨e, he, rfl⟩ := hp
      obtain ⟨t, -, -, hid⟩ := h.timers e he
      exact ⟨_, hid, rfl⟩
    · intro hp
      obtain ⟨id, hid, rfl⟩ := hp
      obtain ⟨t, -, -, he⟩ := h.active id hid
      exact ⟨_, he, rfl⟩

/-- Consistency reads the two sets and the heap. -/
theorem Consistent.congr (h : Consistent q) (ht : q'.timers = q.timers)
    (ha : q'.activeTimers = q.activeTimers) (hh : q'.heap = q.heap) :
    Consistent q' where
  active := by rw [ha, hh, ht]; exact h.active
  timers := by rw [ha, hh, ht]; exact h.timers

theorem deref_eq {p : Nat} {t : Timer} (ht : q.heap p = some t) :
    q.deref p = .ok t := by
  unfold deref
  rw [ht]

theorem delete_eq {p : Nat} {t : Timer} (ht : q.heap p = some t) :
    q.delete p = .ok { q with heap := Function.update q.heap p none } := by
  unfold delete
  rw [ht]

/-- The queue with the object at `p` replaced, created or deleted. -/
def setHeap (q : TimerQueue) (p : Nat) (o : Option Timer) : TimerQueue :=
  { q with heap := Function.update q.heap p o }

theorem heap_setHeap_self (q : TimerQueue) (p : Nat) (o : Option Timer) :
    (q.setHeap p o).heap p = o := Function.update_self ..

theorem heap_setHeap_of_ne {p p' : Nat} (o : Option Timer) (h : p' ≠ p) :
    (q.setHeap p o).heap p' = q.heap p' := Function.update_of_ne h ..

theorem heap_newTimer_self (q : TimerQueue) (p : Nat) (w : Timestamp)
    (r : Bool) (d : Int64) :
    (q.newTimer p w r d).heap p = some ⟨w, r, d, q.numCreated + 1⟩ :=
  Function.update_self ..

theorem heap_newTimer_of_ne {p p' : Nat} (w : Timestamp) (r : Bool)
    (d : Int64) (h : p' ≠ p) :
    (q.newTimer p w r d).heap p' = q.heap p' := Function.update_of_ne h ..

/-- The objects after an allocation: the new one, or an old one. -/
theorem heap_newTimer_inv {p p' : Nat} {w : Timestamp} {r : Bool} {d : Int64}
    {t : Timer} (h : (q.newTimer p w r d).heap p' = some t) :
    (p' = p ∧ t.sequence = q.numCreated + 1)
      ∨ (p' ≠ p ∧ q.heap p' = some t) := by
  by_cases he : p' = p
  · subst he
    rw [heap_newTimer_self] at h
    cases h
    exact .inl ⟨rfl, rfl⟩
  · rw [heap_newTimer_of_ne w r d he] at h
    exact .inr ⟨he, h⟩

/-- Neither set reads the object of a timer that is not in the queue. -/
theorem Consistent.setHeap (h : Consistent q) {p : Nat} (o : Option Timer)
    (hp : ¬ Active q p) : Consistent (q.setHeap p o) where
  active := by
    intro id hid
    have hne : id.timer ≠ p := by
      intro he
      subst he
      exact hp ⟨_, hid⟩
    obtain ⟨t, ht, hs, he⟩ := h.active id hid
    refine ⟨t, ?_, hs, he⟩
    rw [heap_setHeap_of_ne o hne]
    exact ht
  timers := by
    intro e he
    have hne : e.timer ≠ p := by
      intro hep
      subst hep
      exact hp (h.active_of_mem he)
    obtain ⟨t, ht, hw, hid⟩ := h.timers e he
    refine ⟨t, ?_, hw, hid⟩
    rw [heap_setHeap_of_ne o hne]
    exact ht

-- ============================================================ insertion

/-- `earliestChanged` of `TimerQueue::insert`. -/
def isEarliest (q : TimerQueue) (when_ : Timestamp) : Bool :=
  match q.timers.first? with
  | none => true
  | some e => decide (when_ < e.when_)

/-- The queue with the timer `t` at `p` in both sets. -/
def withTimer (q : TimerQueue) (p : Nat) (t : Timer) : TimerQueue :=
  { q with
    timers := q.timers.insert ⟨t.expiration, p⟩
    activeTimers := q.activeTimers.insert ⟨p, t.sequence⟩ }

theorem active_withTimer {p p' : Nat} {t : Timer} :
    Active (q.withTimer p t) p' ↔ p' = p ∨ Active q p' := by
  constructor
  · intro h
    obtain ⟨s, hs⟩ := h
    rcases OrdSet.mem_insert.1 hs with he | hs
    · cases he
      exact .inl rfl
    · exact .inr ⟨s, hs⟩
  · intro h
    rcases h with rfl | ⟨s, hs⟩
    · exact ⟨t.sequence, OrdSet.mem_insert.2 (.inl rfl)⟩
    · exact ⟨s, OrdSet.mem_insert.2 (.inr hs)⟩

theorem Consistent.withTimer (h : Consistent q) {p : Nat} {t : Timer}
    (ht : q.heap p = some t) : Consistent (q.withTimer p t) where
  active := by
    intro id hid
    rcases OrdSet.mem_insert.1 hid with rfl | hid
    · exact ⟨t, ht, rfl, OrdSet.mem_insert.2 (.inl rfl)⟩
    · obtain ⟨t', ht', hs, he⟩ := h.active id hid
      exact ⟨t', ht', hs, OrdSet.mem_insert.2 (.inr he)⟩
  timers := by
    intro e he
    rcases OrdSet.mem_insert.1 he with rfl | he
    · exact ⟨t, ht, rfl, OrdSet.mem_insert.2 (.inl rfl)⟩
    · obtain ⟨t', ht', hw, hid⟩ := h.timers e he
      exact ⟨t', ht', hw, OrdSet.mem_insert.2 (.inr hid)⟩

/-- Inserting a timer that is not in the queue passes every
assertion. -/
theorem insert_eq (h : Consistent q) {p : Nat} {t : Timer}
    (ht : q.heap p = some t) (hp : ¬ Active q p) :
    q.insert p = .ok (q.isEarliest t.expiration, q.withTimer p t) := by
  have htimers : (⟨t.expiration, p⟩ : Entry) ∉ q.timers :=
    fun he => hp (h.active_of_mem he)
  have hactive : (⟨p, t.sequence⟩ : TimerId) ∉ q.activeTimers :=
    fun hid => hp ⟨_, hid⟩
  have hsizes : (q.withTimer p t).sizesEqual := (h.withTimer ht).sizes
  unfold insert
  rw [require_bind h.sizes, deref_eq ht, ok_bind, require_bind htimers]
  apply (require_bind hactive _).trans
  exact require_bind hsizes _

/-- The queue after `addTimerInLoop` of the timer `t` at `p`. -/
def added (q : TimerQueue) (now : Timestamp) (p : Nat) (t : Timer) :
    TimerQueue :=
  if q.isEarliest t.expiration then
    { q.withTimer p t with
      timerfd := resetTimerfd q.timerfd now t.expiration }
  else q.withTimer p t

theorem addTimerInLoop_eq (h : Consistent q) (now : Timestamp) {p : Nat}
    {t : Timer} (ht : q.heap p = some t) (hp : ¬ Active q p) :
    q.addTimerInLoop now p = .ok (q.added now p t) := by
  unfold addTimerInLoop added
  rw [insert_eq h ht hp]
  simp only [ok_bind]
  split
  next =>
    have ht' : (q.withTimer p t).heap p = some t := ht
    rw [deref_eq ht']
    rfl
  next => rfl

/-- Besides the sets, an insertion can only re-arm the timerfd. -/
theorem added_frame (q : TimerQueue) (now : Timestamp) (p : Nat)
    (t : Timer) :
    (q.added now p t).timers = (q.withTimer p t).timers
      ∧ (q.added now p t).activeTimers = (q.withTimer p t).activeTimers
      ∧ (q.added now p t).heap = q.heap
      ∧ (q.added now p t).numCreated = q.numCreated
      ∧ (q.added now p t).cancelingTimers = q.cancelingTimers
      ∧ (q.added now p t).callingExpiredTimers = q.callingExpiredTimers := by
  unfold added
  split <;> exact ⟨rfl, rfl, rfl, rfl, rfl, rfl⟩

-- ========================================================= cancellation

/-- The queue without the active timer `t`, deleted. -/
def dropped (q : TimerQueue) (id : TimerId) (t : Timer) : TimerQueue :=
  { q with
    timers := q.timers.erase ⟨t.expiration, id.timer⟩
    activeTimers := q.activeTimers.erase id
    heap := Function.update q.heap id.timer none }

theorem heap_dropped_of_ne {id : TimerId} {p : Nat} (t : Timer)
    (h : p ≠ id.timer) : (q.dropped id t).heap p = q.heap p :=
  Function.update_of_ne h ..

/-- The objects that survive a cancel. -/
theorem heap_dropped_inv {id : TimerId} {t t' : Timer} {p : Nat}
    (h : (q.dropped id t).heap p = some t') :
    p ≠ id.timer ∧ q.heap p = some t' := by
  by_cases he : p = id.timer
  · rw [he, show (q.dropped id t).heap id.timer = none from
      Function.update_self ..] at h
    cases h
  · rw [heap_dropped_of_ne t he] at h
    exact ⟨he, h⟩

theorem active_dropped (h : Consistent q) {id : TimerId} {t : Timer}
    (ht : q.heap id.timer = some t) (hid : id ∈ q.activeTimers) {p : Nat} :
    Active (q.dropped id t) p ↔ p ≠ id.timer ∧ Active q p := by
  obtain ⟨hs, -⟩ := h.mem_active hid ht
  constructor
  · intro hp
    obtain ⟨s, hmem⟩ := hp
    obtain ⟨hne, hold⟩ := OrdSet.mem_erase.1 hmem
    refine ⟨fun hp => hne ?_, s, hold⟩
    -- the address alone tells the entry, since a live timer has one
    subst hp
    have hs' : t.sequence = s := (h.mem_active hold ht).1
    cases id
    simp only at hs
    rw [← hs', hs]
  · intro hp
    obtain ⟨hne, s, hmem⟩ := hp
    refine ⟨s, OrdSet.mem_erase.2 ⟨fun he => hne ?_, hmem⟩⟩
    rw [← he]

theorem Consistent.dropped (h : Consistent q) {id : TimerId} {t : Timer}
    (ht : q.heap id.timer = some t) (hid : id ∈ q.activeTimers) :
    Consistent (q.dropped id t) where
  active := by
    intro id' hid'
    have hne := ((active_dropped h ht hid).1 ⟨_, hid'⟩).1
    obtain ⟨-, hold⟩ := OrdSet.mem_erase.1 hid'
    obtain ⟨t', ht', hs, he⟩ := h.active id' hold
    refine ⟨t', ?_, hs, OrdSet.mem_erase.2 ⟨fun heq => hne ?_, he⟩⟩
    · show Function.update q.heap id.timer none id'.timer = some t'
      rw [Function.update_of_ne hne]
      exact ht'
    · exact congrArg Entry.timer heq
  timers := by
    intro e he
    obtain ⟨hne, hold⟩ := OrdSet.mem_erase.1 he
    have hp : e.timer ≠ id.timer := fun hp =>
      hne (h.entry_inj hold (h.mem_active hid ht).2 hp)
    obtain ⟨t', ht', hw, hid'⟩ := h.timers e hold
    refine ⟨t', ?_, hw, OrdSet.mem_erase.2 ⟨fun heq => hp ?_, hid'⟩⟩
    · show Function.update q.heap id.timer none e.timer = some t'
      rw [Function.update_of_ne hp]
      exact ht'
    · exact congrArg TimerId.timer heq

/-- Cancelling an active timer takes it out of both sets and deletes
it. -/
theorem cancelInLoop_active (h : Consistent q) {id : TimerId} {t : Timer}
    (ht : q.heap id.timer = some t) (hid : id ∈ q.activeTimers) :
    q.cancelInLoop id = .ok (q.dropped id t) := by
  have htimers := (h.mem_active hid ht).2
  have hcancel : q.cancelTimer id = .ok (q.dropped id t) := by
    unfold cancelTimer
    rw [if_pos hid, deref_eq ht, ok_bind]
    apply (require_bind htimers _).trans
    dsimp only
    rw [delete_eq (q := { q with
      timers := q.timers.erase ⟨t.expiration, id.timer⟩ }) ht]
    rfl
  unfold cancelInLoop
  rw [require_bind h.sizes, hcancel, ok_bind]
  exact require_bind (h.dropped ht hid).sizes _

/-- Cancelling any other identifier only records it, while the batch is
being run. -/
theorem cancelInLoop_inactive (h : Consistent q) {id : TimerId}
    (hid : id ∉ q.activeTimers) :
    q.cancelInLoop id = .ok (if q.callingExpiredTimers then
      { q with cancelingTimers := q.cancelingTimers.insert id } else q) := by
  unfold cancelInLoop cancelTimer
  rw [require_bind h.sizes, if_neg hid]
  split
  next =>
    rw [ok_bind]
    exact require_bind (h.congr rfl rfl rfl).sizes _
  next =>
    rw [ok_bind]
    exact require_bind h.sizes _

-- =============================================================== expiry

/-- The loop of `getExpired` erases exactly the timers it is given. -/
theorem eraseActive_eq : ∀ (es : List Entry) {q : TimerQueue},
    (∀ id ∈ q.activeTimers, ∃ t, q.heap id.timer = some t
      ∧ t.sequence = id.sequence) →
    (∀ e ∈ es, Active q e.timer) → (es.map Entry.timer).Nodup →
    ∃ a : OrdSet TimerId,
      q.eraseActive es = .ok { q with activeTimers := a }
        ∧ ∀ id, id ∈ a
          ↔ id ∈ q.activeTimers ∧ id.timer ∉ es.map Entry.timer := by
  intro es
  induction es with
  | nil =>
      intro q _ _ _
      exact ⟨q.activeTimers, rfl, fun id => by simp⟩
  | cons e es ih =>
      intro q hseq hact hnd
      obtain ⟨s, hs⟩ := hact e (List.mem_cons_self ..)
      obtain ⟨t, ht, hts⟩ := hseq _ hs
      have hts' : t.sequence = s := hts
      subst hts'
      rw [List.map_cons] at hnd
      obtain ⟨hnot, hnd'⟩ := List.nodup_cons.1 hnd
      -- an entry with this address is this very entry
      have hone : ∀ id ∈ q.activeTimers,
          id ≠ ⟨e.timer, t.sequence⟩ ↔ id.timer ≠ e.timer := by
        intro id hid
        refine not_congr ⟨fun h => by rw [h], fun h => ?_⟩
        obtain ⟨t', ht', hs'⟩ := hseq id hid
        rw [h, ht] at ht'
        cases ht'
        cases id
        simp only at h hs'
        rw [h, hs']
      have hmem : ∀ id, id ∈ q.activeTimers.erase ⟨e.timer, t.sequence⟩
          ↔ id ∈ q.activeTimers ∧ id.timer ≠ e.timer := by
        intro id
        rw [OrdSet.mem_erase, and_comm]
        exact and_congr_right fun hid => hone id hid
      obtain ⟨a, ha, hiff⟩ := ih
        (q := { q with
          activeTimers := q.activeTimers.erase ⟨e.timer, t.sequence⟩ })
        (fun id hid => hseq id ((hmem id).1 hid).1)
        (fun e' he' => by
          obtain ⟨s', hs'⟩ := hact e' (List.mem_cons_of_mem _ he')
          refine ⟨s', (hmem _).2 ⟨hs', fun h => hnot ?_⟩⟩
          rw [← h]
          exact List.mem_map_of_mem he')
        hnd'
      refine ⟨a, ?_, fun id => ?_⟩
      · unfold eraseActive
        rw [deref_eq ht, ok_bind, require_bind hs]
        exact ha
      · rw [hiff, hmem, List.map_cons, List.mem_cons, not_or, and_assoc]

/-- What `getExpired` makes of the queue: the due entries, and the queue
without them. -/
structure Expired (q : TimerQueue) (now : Timestamp) (expired : List Entry)
    (q' : TimerQueue) : Prop where
  consistent : Consistent q'
  due : ∀ e, e ∈ expired ↔ e ∈ q.timers ∧ e.when_ ≤ now
  left : ∀ e, e ∈ q'.timers ↔ e ∈ q.timers ∧ now < e.when_
  nodup : (expired.map Entry.timer).Nodup
  sorted : expired.Pairwise (· < ·)
  active : ∀ p, Active q' p ↔ Active q p ∧ p ∉ expired.map Entry.timer
  heap : q'.heap = q.heap
  numCreated : q'.numCreated = q.numCreated
  timerfd : q'.timerfd = q.timerfd

/-- The cut at the sentry: no object is at its address, so what is below
it is due. -/
theorem Consistent.mem_due (h : Consistent q) (now : Timestamp)
    (hb : ∀ p t, q.heap p = some t → p < UINTPTR_MAX) (e : Entry) :
    e ∈ q.timers.below ⟨now, UINTPTR_MAX⟩
      ↔ e ∈ q.timers ∧ e.when_ ≤ now := by
  rw [OrdSet.mem_below]
  refine and_congr_right fun he => ?_
  obtain ⟨t, ht, -⟩ := h.timers e he
  exact Entry.lt_sentry (hb _ t ht)

theorem Consistent.mem_left (h : Consistent q) (now : Timestamp)
    (hb : ∀ p t, q.heap p = some t → p < UINTPTR_MAX) (e : Entry) :
    e ∈ q.timers.fromKey ⟨now, UINTPTR_MAX⟩
      ↔ e ∈ q.timers ∧ now < e.when_ := by
  rw [OrdSet.mem_fromKey]
  refine and_congr_right fun he => ?_
  obtain ⟨t, ht, -⟩ := h.timers e he
  rw [← not_lt, Entry.lt_sentry (hb _ t ht), not_le]

/-- A timer is among the expired ones exactly if its entry was due. -/
theorem Consistent.not_due (h : Consistent q) {now : Timestamp}
    {due : List Entry} (hdue : ∀ e, e ∈ due ↔ e ∈ q.timers ∧ e.when_ ≤ now)
    {e : Entry} (he : e ∈ q.timers) :
    e.timer ∉ due.map Entry.timer ↔ now < e.when_ := by
  rw [← not_le, not_iff_not]
  constructor
  · intro hm
    obtain ⟨e', he', hp⟩ := List.mem_map.1 hm
    obtain ⟨hmem, hw⟩ := (hdue e').1 he'
    rw [← h.entry_inj hmem he hp]
    exact hw
  · intro hw
    exact List.mem_map_of_mem ((hdue e).2 ⟨he, hw⟩)

theorem getExpired_ok (h : Consistent q) (now : Timestamp)
    (hb : ∀ p t, q.heap p = some t → p < UINTPTR_MAX) :
    ∃ expired q', q.getExpired now = .ok (expired, q')
      ∧ Expired q now expired q' := by
  have hdue := h.mem_due now hb
  have hleft := h.mem_left now hb
  have hnd : ((q.timers.below ⟨now, UINTPTR_MAX⟩).map Entry.timer).Nodup := by
    refine List.Nodup.map_on (fun e he e' he' hp => ?_)
      (OrdSet.below_nodup _ _)
    exact h.entry_inj ((hdue e).1 he).1 ((hdue e').1 he').1 hp
  obtain ⟨a, ha, hiff⟩ := eraseActive_eq
    (q.timers.below ⟨now, UINTPTR_MAX⟩)
    (q := { q with timers := q.timers.fromKey ⟨now, UINTPTR_MAX⟩ })
    (fun id hid => by
      obtain ⟨t, ht, hs, -⟩ := h.active id hid
      exact ⟨t, ht, hs⟩)
    (fun e he => h.active_of_mem ((hdue e).1 he).1) hnd
  have hcons : Consistent { q with
      timers := q.timers.fromKey ⟨now, UINTPTR_MAX⟩
      activeTimers := a } := by
    constructor
    case active =>
      intro id hid
      obtain ⟨hold, hnot⟩ := (hiff id).1 hid
      obtain ⟨t, ht, hs, he⟩ := h.active id hold
      exact ⟨t, ht, hs, (hleft _).2 ⟨he, (h.not_due hdue he).1 hnot⟩⟩
    case timers =>
      intro e he
      obtain ⟨hold, hw⟩ := (hleft e).1 he
      obtain ⟨t, ht, hw', hid⟩ := h.timers e hold
      exact ⟨t, ht, hw', (hiff _).2 ⟨hid, (h.not_due hdue hold).2 hw⟩⟩
  refine ⟨_, _, ?_, ⟨hcons, hdue, hleft, hnd, ?_, ?_, rfl, rfl, rfl⟩⟩
  · have hend : endAfter now
        (q.timers.fromKey ⟨now, UINTPTR_MAX⟩).first? := by
      cases hf : (q.timers.fromKey ⟨now, UINTPTR_MAX⟩).first? with
      | none => trivial
      | some e => exact ((hleft e).1 (OrdSet.first?_eq_some.1 hf).1).2
    unfold getExpired
    rw [require_bind h.sizes]
    apply (require_bind hend _).trans
    dsimp only
    rw [ha, ok_bind]
    exact require_bind hcons.sizes _
  · exact q.timers.sorted.sublist (List.takeWhile_sublist _)
  · intro p
    constructor
    · intro hp
      obtain ⟨s, hs⟩ := hp
      obtain ⟨hold, hnot⟩ := (hiff _).1 hs
      exact ⟨⟨s, hold⟩, hnot⟩
    · intro hp
      obtain ⟨⟨s, hs⟩, hnot⟩ := hp
      exact ⟨s, (hiff _).2 ⟨hs, hnot⟩⟩

-- ================================================================ reset

/-- The timer `t` at `p` is re-armed when its batch is over. -/
def Kept (q : TimerQueue) (p : Nat) (t : Timer) : Prop :=
  t.repeat_ = true ∧ ⟨p, t.sequence⟩ ∉ q.cancelingTimers

instance (q : TimerQueue) (p : Nat) (t : Timer) : Decidable (q.Kept p t) :=
  inferInstanceAs (Decidable (_ ∧ _))

/-- What the loop of `reset` makes of the queue. -/
structure Reset (q : TimerQueue) (now : Timestamp) (es : List Entry)
    (q' : TimerQueue) : Prop where
  consistent : Consistent q'
  kept : ∀ e ∈ es, ∀ t, q.heap e.timer = some t → q.Kept e.timer t →
    q'.heap e.timer = some (t.restart now) ∧ Active q' e.timer
  gone : ∀ e ∈ es, ∀ t, q.heap e.timer = some t → ¬ q.Kept e.timer t →
    q'.heap e.timer = none
  other : ∀ p, p ∉ es.map Entry.timer → q'.heap p = q.heap p
  active : ∀ p, p ∉ es.map Entry.timer → (Active q' p ↔ Active q p)
  old : ∀ e ∈ q.timers, e ∈ q'.timers
  new : ∀ e ∈ q'.timers, e ∈ q.timers ∨ ∃ p t, p ∈ es.map Entry.timer
    ∧ q.heap p = some t ∧ q.Kept p t ∧ e.when_ = (t.restart now).expiration
  numCreated : q'.numCreated = q.numCreated
  timerfd : q'.timerfd = q.timerfd
  canceling : q'.cancelingTimers = q.cancelingTimers
  calling : q'.callingExpiredTimers = q.callingExpiredTimers

/-- A timer alive after the loop: one that is not in the batch, or one
that was kept. -/
theorem Reset.live_inv {now : Timestamp} {es : List Entry} {q' : TimerQueue}
    (hr : Reset q now es q') (hlive : ∀ e ∈ es, ∃ t, q.heap e.timer = some t)
    {p : Nat} {t : Timer} (ht : q'.heap p = some t) :
    (p ∉ es.map Entry.timer ∧ q.heap p = some t)
      ∨ (Active q' p ∧ ∃ t₀, q.heap p = some t₀ ∧ q.Kept p t₀
        ∧ t.sequence = t₀.sequence) := by
  by_cases hp : p ∈ es.map Entry.timer
  · obtain ⟨e, he, rfl⟩ := List.mem_map.1 hp
    obtain ⟨t₀, ht₀⟩ := hlive e he
    by_cases hk : q.Kept e.timer t₀
    · obtain ⟨hkt, hka⟩ := hr.kept e he t₀ ht₀ hk
      rw [hkt] at ht
      cases ht
      refine .inr ⟨hka, t₀, ht₀, hk, ?_⟩
      unfold Timer.restart
      split <;> rfl
    · rw [hr.gone e he t₀ ht₀ hk] at ht
      cases ht
  · rw [hr.other p hp] at ht
    exact .inl ⟨hp, ht⟩

/-- One turn of the loop, then the rest of it: the turn only touches the
object at `p` and the two sets, so the account of the rest carries
over. -/
theorem Reset.cons {now : Timestamp} {e : Entry} {es : List Entry}
    {q₁ q' : TimerQueue} {t : Timer} (ht : q.heap e.timer = some t)
    (hnot : e.timer ∉ es.map Entry.timer) (hr : Reset q₁ now es q')
    (hheap : ∀ p, p ≠ e.timer → q₁.heap p = q.heap p)
    (hself : if q.Kept e.timer t then
        q₁.heap e.timer = some (t.restart now) ∧ Active q₁ e.timer
      else q₁.heap e.timer = none)
    (hactive : ∀ p, p ≠ e.timer → (Active q₁ p ↔ Active q p))
    (hold : ∀ x ∈ q.timers, x ∈ q₁.timers)
    (hnew : ∀ x ∈ q₁.timers, x ∈ q.timers
      ∨ q.Kept e.timer t ∧ x.when_ = (t.restart now).expiration)
    (hn : q₁.numCreated = q.numCreated) (hfd : q₁.timerfd = q.timerfd)
    (hc : q₁.cancelingTimers = q.cancelingTimers)
    (hcall : q₁.callingExpiredTimers = q.callingExpiredTimers) :
    Reset q now (e :: es) q' := by
  have hk : ∀ p t, q₁.Kept p t ↔ q.Kept p t := by
    intro p t
    unfold Kept
    rw [hc]
  have hne : ∀ x ∈ es, x.timer ≠ e.timer := by
    intro x hx hp
    rw [← hp] at hnot
    exact hnot (List.mem_map_of_mem hx)
  refine ⟨hr.consistent, ?_, ?_, ?_, ?_, fun x hx => hr.old x (hold x hx), ?_,
    hr.numCreated.trans hn, hr.timerfd.trans hfd, hr.canceling.trans hc,
    hr.calling.trans hcall⟩
  · intro x hx t' ht' hkept
    rcases List.mem_cons.1 hx with rfl | hx
    · rw [ht] at ht'
      cases ht'
      rw [if_pos hkept] at hself
      rw [hr.other _ hnot, hr.active _ hnot]
      exact hself
    · exact hr.kept x hx t' (by rw [hheap _ (hne x hx)]; exact ht')
        ((hk _ _).2 hkept)
  · intro x hx t' ht' hkept
    rcases List.mem_cons.1 hx with rfl | hx
    · rw [ht] at ht'
      cases ht'
      rw [if_neg hkept] at hself
      rw [hr.other _ hnot]
      exact hself
    · exact hr.gone x hx t' (by rw [hheap _ (hne x hx)]; exact ht')
        (fun h => hkept ((hk _ _).1 h))
  · intro p hp
    rw [List.map_cons, List.mem_cons, not_or] at hp
    rw [hr.other p hp.2, hheap p hp.1]
  · intro p hp
    rw [List.map_cons, List.mem_cons, not_or] at hp
    rw [hr.active p hp.2, hactive p hp.1]
  · intro x hx
    rcases hr.new x hx with hx | ⟨p, t', hp, ht', hkept, hw⟩
    · rcases hnew x hx with hx | ⟨hkept, hw⟩
      · exact .inl hx
      · exact .inr ⟨e.timer, t, List.mem_cons_self .., ht, hkept, hw⟩
    · refine .inr ⟨p, t', List.mem_cons_of_mem _ hp, ?_,
        (hk _ _).1 hkept, hw⟩
      rw [← hheap p (fun he => hnot (he ▸ hp))]
      exact ht'

/-- A turn of the loop that restarts the timer. -/
theorem resetEach_kept (h : Consistent q) (now : Timestamp) {e : Entry}
    {t : Timer} (es : List Entry) (ht : q.heap e.timer = some t)
    (hidle : ¬ Active q e.timer) (hk : q.Kept e.timer t) :
    q.resetEach now (e :: es)
      = ((q.setHeap e.timer (some (t.restart now))).withTimer e.timer
        (t.restart now)).resetEach now es := by
  have hcond : (t.repeat_ && decide
      (⟨e.timer, t.sequence⟩ ∉ q.cancelingTimers)) = true := by
    rw [hk.1, Bool.true_and]
    exact decide_eq_true hk.2
  have hins := insert_eq (h.setHeap (some (t.restart now)) hidle)
    (heap_setHeap_self q e.timer _) hidle
  rw [resetEach, deref_eq ht, ok_bind, if_pos hcond]
  exact congrArg (· >>= _) hins

/-- A turn of the loop that deletes the timer. -/
theorem resetEach_gone (now : Timestamp) {e : Entry} {t : Timer}
    (es : List Entry) (ht : q.heap e.timer = some t)
    (hk : ¬ q.Kept e.timer t) :
    q.resetEach now (e :: es)
      = (q.setHeap e.timer none).resetEach now es := by
  have hcond : ¬ (t.repeat_ && decide
      (⟨e.timer, t.sequence⟩ ∉ q.cancelingTimers)) = true := by
    intro hc
    simp only [Bool.and_eq_true, decide_eq_true_eq] at hc
    exact hk hc
  rw [resetEach, deref_eq ht, ok_bind, if_neg hcond, delete_eq ht]
  rfl

theorem resetEach_ok (now : Timestamp) : ∀ (es : List Entry) {q : TimerQueue},
    Consistent q → (∀ e ∈ es, ∃ t, q.heap e.timer = some t) →
    (∀ e ∈ es, ¬ Active q e.timer) → (es.map Entry.timer).Nodup →
    ∃ q', q.resetEach now es = .ok q' ∧ Reset q now es q' := by
  intro es
  induction es with
  | nil =>
      intro q h _ _ _
      refine ⟨q, rfl, h, ?_, ?_, fun _ _ => rfl, fun _ _ => Iff.rfl,
        fun _ he => he, fun _ he => .inl he, rfl, rfl, rfl, rfl⟩
      · intro e he
        cases he
      · intro e he
        cases he
  | cons e es ih =>
      intro q h hlive hidle hnd
      obtain ⟨t, ht⟩ := hlive e (List.mem_cons_self ..)
      have he := hidle e (List.mem_cons_self ..)
      rw [List.map_cons] at hnd
      obtain ⟨hnot, hnd'⟩ := List.nodup_cons.1 hnd
      have hne : ∀ x ∈ es, x.timer ≠ e.timer := by
        intro x hx hp
        rw [← hp] at hnot
        exact hnot (List.mem_map_of_mem hx)
      -- the turn leaves the other timers of the batch alive
      have hlive' : ∀ (o : Option Timer), ∀ x ∈ es,
          ∃ t', (q.setHeap e.timer o).heap x.timer = some t' := by
        intro o x hx
        obtain ⟨t', ht'⟩ := hlive x (List.mem_cons_of_mem _ hx)
        exact ⟨t', (heap_setHeap_of_ne _ (hne x hx)).trans ht'⟩
      by_cases hk : q.Kept e.timer t
      · rw [resetEach_kept h now es ht he hk]
        have hself := heap_setHeap_self q e.timer (some (t.restart now))
        obtain ⟨q', hq', hr⟩ := ih
          ((h.setHeap (some (t.restart now)) he).withTimer hself)
          (hlive' _)
          (fun x hx hact => by
            rcases active_withTimer.1 hact with hp | hact
            · exact hne x hx hp
            · exact hidle x (List.mem_cons_of_mem _ hx) hact)
          hnd'
        refine ⟨q', hq', hr.cons ht hnot
          (fun p hp => heap_setHeap_of_ne _ hp) ?_ ?_ ?_ ?_ rfl rfl rfl rfl⟩
        · rw [if_pos hk]
          exact ⟨hself, active_withTimer.2 (.inl rfl)⟩
        · intro p hp
          rw [active_withTimer]
          exact ⟨fun hor => hor.resolve_left hp, .inr⟩
        · intro x hx
          exact OrdSet.mem_insert.2 (.inr hx)
        · intro x hx
          rcases OrdSet.mem_insert.1 hx with rfl | hx
          · exact .inr ⟨hk, rfl⟩
          · exact .inl hx
      · rw [resetEach_gone now es ht hk]
        obtain ⟨q', hq', hr⟩ := ih (h.setHeap none he) (hlive' none)
          (fun x hx => hidle x (List.mem_cons_of_mem _ hx)) hnd'
        refine ⟨q', hq', hr.cons ht hnot
          (fun p hp => heap_setHeap_of_ne _ hp) ?_ (fun _ _ => Iff.rfl)
          (fun _ hx => hx) (fun _ hx => .inl hx) rfl rfl rfl rfl⟩
        rw [if_neg hk]
        exact heap_setHeap_self q e.timer none

/-- The queue after the end of `reset`. -/
def rearmed (q : TimerQueue) (clock : Timestamp) : TimerQueue :=
  match q.timers.first? with
  | none => q
  | some e =>
      if e.when_.valid then
        { q with timerfd := resetTimerfd q.timerfd clock e.when_ }
      else q

theorem rearm_eq (h : Consistent q) (clock : Timestamp) :
    q.rearm clock = .ok (q.rearmed clock) := by
  unfold rearm rearmed
  cases hf : q.timers.first? with
  | none => rfl
  | some e =>
      obtain ⟨t, ht, hw, -⟩ := h.timers e (OrdSet.first?_eq_some.1 hf).1
      simp only
      rw [deref_eq ht, ok_bind, ok_bind, hw]
      split <;> rfl

/-- The end of `reset` only touches the timerfd. -/
theorem rearmed_frame (q : TimerQueue) (clock : Timestamp) :
    (q.rearmed clock).timers = q.timers
      ∧ (q.rearmed clock).activeTimers = q.activeTimers
      ∧ (q.rearmed clock).heap = q.heap
      ∧ (q.rearmed clock).numCreated = q.numCreated
      ∧ (q.rearmed clock).cancelingTimers = q.cancelingTimers
      ∧ (q.rearmed clock).callingExpiredTimers = q.callingExpiredTimers := by
  unfold rearmed
  split
  · exact ⟨rfl, rfl, rfl, rfl, rfl, rfl⟩
  · split <;> exact ⟨rfl, rfl, rfl, rfl, rfl, rfl⟩

end TimerQueue

namespace TimerLoop

open TimerQueue

variable {L L' : TimerLoop}

-- ==================================================== the loop invariant

/-- The batch of the `handleRead` in progress: out of both sets, still
alive, and run from front to back. -/
structure BatchInv (L : TimerLoop) (f : HandleRead) : Prop where
  ran : ∃ ran, f.expired = ran ++ f.rest
  nodup : (f.expired.map Entry.timer).Nodup
  live : ∀ e ∈ f.expired, ∃ t, L.queue.heap e.timer = some t
  idle : ∀ e ∈ f.expired, ¬ Active L.queue e.timer
  notFresh : ∀ e ∈ f.expired, e.timer ∉ L.fresh

/-- The next timer in line is one of the batch. -/
theorem BatchInv.mem_next {f : HandleRead} {e : Entry} {rest : List Entry}
    (h : BatchInv L f) (hrest : f.rest = e :: rest) : e ∈ f.expired := by
  obtain ⟨ran, hran⟩ := h.ran
  rw [hran, hrest]
  exact List.mem_append_right _ (List.mem_cons_self ..)

/-- Where the live timers are. -/
structure LoopInv (L : TimerLoop) : Prop where
  sets : Consistent L.queue
  bound : ∀ p t, L.queue.heap p = some t → p < UINTPTR_MAX
  seq_le : ∀ p t, L.queue.heap p = some t → t.sequence ≤ L.queue.numCreated
  freshLive : ∀ p ∈ L.fresh, ∃ t, L.queue.heap p = some t
  freshIdle : ∀ p ∈ L.fresh, ¬ Active L.queue p
  freshNodup : L.fresh.Nodup
  batch : ∀ f, L.frame = some f → BatchInv L f
  calling : L.queue.callingExpiredTimers = L.frame.isSome
  owned : ∀ p t, L.queue.heap p = some t → Active L.queue p ∨ p ∈ L.fresh
    ∨ ∃ f, L.frame = some f ∧ p ∈ f.expired.map Entry.timer

theorem loopInv_create (clock : Timestamp) : LoopInv (create clock) where
  sets := consistent_create
  bound := fun _ _ h => by cases h
  seq_le := fun _ _ h => by cases h
  freshLive := fun _ h => by cases h
  freshIdle := fun _ h => by cases h
  freshNodup := .nil
  batch := fun _ h => by cases h
  calling := rfl
  owned := fun _ _ h => by cases h

/-- What the action `a` can make of `L`. -/
inductive Moves (L : TimerLoop) : TimerAct → TimerLoop → Prop
  | stay (a : TimerAct) (ha : ∀ id, a ≠ .cancelInLoop id) : Moves L a L
  | tick (t : Timestamp) (h : L.clock ≤ t) :
      Moves L (.tick t) { L with clock := t }
  | new (p : Nat) (w : Timestamp) (r : Bool) (d : Int64)
      (hp : p < UINTPTR_MAX) (hfree : L.queue.heap p = none) :
      Moves L (.newTimer p w r d)
        { L with
          queue := L.queue.newTimer p w r d
          fresh := p :: L.fresh
          obs := L.obs ++ [.issued ⟨p, L.queue.numCreated + 1⟩] }
  | add (p : Nat) (t : Timer) (hf : p ∈ L.fresh)
      (ht : L.queue.heap p = some t) :
      Moves L (.addTimerInLoop p)
        { L with
          queue := L.queue.added L.clock p t
          fresh := L.fresh.erase p
          obs := L.obs ++ [.inserted ⟨p, t.sequence⟩] }
  | drop (id : TimerId) (t : Timer) (hid : id ∈ L.queue.activeTimers)
      (ht : L.queue.heap id.timer = some t) :
      Moves L (.cancelInLoop id)
        { L with
          queue := L.queue.dropped id t
          obs := L.obs ++ [.cancelled id] }
  | mark (id : TimerId) (hid : id ∉ L.queue.activeTimers) (f : HandleRead)
      (hf : L.frame = some f) :
      Moves L (.cancelInLoop id)
        { L with
          queue := { L.queue with
            cancelingTimers := L.queue.cancelingTimers.insert id }
          obs := L.obs ++ [.cancelled id] }
  | miss (id : TimerId) (hid : id ∉ L.queue.activeTimers)
      (hf : L.frame = none) :
      Moves L (.cancelInLoop id) { L with obs := L.obs ++ [.cancelled id] }
  | begin (hf : L.frame = none) (expired : List Entry) (q : TimerQueue)
      (hq : Expired
        { L.queue with timerfd := readTimerfd L.queue.timerfd L.clock }
        L.clock expired q) :
      Moves L .beginRead
        { L with
          queue := { q with
            callingExpiredTimers := true
            cancelingTimers := .empty }
          frame := some ⟨L.clock, expired, expired⟩ }
  | run (now : Timestamp) (expired : List Entry) (e : Entry)
      (rest : List Entry) (t : Timer)
      (hf : L.frame = some ⟨now, expired, e :: rest⟩)
      (ht : L.queue.heap e.timer = some t) :
      Moves L .runNext
        { L with
          frame := some ⟨now, expired, rest⟩
          obs := L.obs ++ [.started ⟨e.timer, t.sequence⟩] }
  | finish (now : Timestamp) (expired : List Entry) (q : TimerQueue)
      (hf : L.frame = some ⟨now, expired, []⟩)
      (hr : Reset { L.queue with callingExpiredTimers := false }
        now expired q) :
      Moves L .endRead
        { L with queue := q.rearmed L.clock, frame := none }

/-- Under the invariant every action succeeds and is one of the moves:
no assertion fails and no deleted timer is touched. -/
theorem step_moves (h : LoopInv L) (a : TimerAct) :
    ∃ L', L.step a = .ok L' ∧ Moves L a L' := by
  cases a with
  | tick t =>
      simp only [step]
      split
      next ht => exact ⟨_, rfl, .tick t ht⟩
      next => exact ⟨_, rfl, .stay _ nofun⟩
  | newTimer p w r d =>
      simp only [step]
      split
      next hp =>
        simp only [canAllocate, Bool.and_eq_true, decide_eq_true_eq,
          Option.isNone_iff_eq_none] at hp
        exact ⟨_, rfl, .new p w r d hp.1 hp.2⟩
      next => exact ⟨_, rfl, .stay _ nofun⟩
  | addTimerInLoop p =>
      simp only [step]
      split
      next hp =>
        obtain ⟨t, ht⟩ := h.freshLive p hp
        refine ⟨_, ?_, .add p t hp ht⟩
        simp only [idOf, deref_eq ht, ok_bind,
          addTimerInLoop_eq h.sets L.clock ht (h.freshIdle p hp)]
      next => exact ⟨_, rfl, .stay _ nofun⟩
  | cancelInLoop id =>
      by_cases hid : id ∈ L.queue.activeTimers
      · obtain ⟨t, ht, -⟩ := h.sets.active id hid
        refine ⟨_, ?_, .drop id t hid ht⟩
        simp only [step, cancelInLoop_active h.sets ht hid, ok_bind]
      · have hcall := h.calling
        cases hf : L.frame with
        | none =>
            rw [hf] at hcall
            refine ⟨_, ?_, .miss id hid hf⟩
            simp only [step, cancelInLoop_inactive h.sets hid, ok_bind]
            rw [if_neg (by rw [hcall]; decide)]
        | some f =>
            rw [hf] at hcall
            refine ⟨_, ?_, .mark id hid f hf⟩
            simp only [step, cancelInLoop_inactive h.sets hid, ok_bind]
            rw [if_pos (by rw [hcall]; rfl)]
  | beginRead =>
      simp only [step]
      cases hf : L.frame with
      | some f => exact ⟨_, rfl, .stay _ nofun⟩
      | none =>
          obtain ⟨expired, q, hget, hexp⟩ := getExpired_ok
            (q := { L.queue with
              timerfd := readTimerfd L.queue.timerfd L.clock })
            (h.sets.congr rfl rfl rfl) L.clock h.bound
          refine ⟨_, ?_, .begin hf expired q hexp⟩
          simp only [beginRead, hget, ok_bind]
  | runNext =>
      simp only [step]
      cases hf : L.frame with
      | none => exact ⟨_, rfl, .stay _ nofun⟩
      | some f =>
          obtain ⟨now, expired, rest⟩ := f
          cases rest with
          | nil => exact ⟨_, rfl, .stay _ nofun⟩
          | cons e rest =>
              have hb := h.batch _ hf
              obtain ⟨t, ht⟩ := hb.live e (hb.mem_next rfl)
              refine ⟨_, ?_, .run now expired e rest t hf ht⟩
              simp only [idOf, deref_eq ht, ok_bind]
  | endRead =>
      simp only [step]
      cases hf : L.frame with
      | none => exact ⟨_, rfl, .stay _ nofun⟩
      | some f =>
          obtain ⟨now, expired, rest⟩ := f
          cases rest with
          | cons e rest => exact ⟨_, rfl, .stay _ nofun⟩
          | nil =>
              have hb := h.batch _ hf
              obtain ⟨q, hq, hr⟩ := resetEach_ok now expired
                (q := { L.queue with callingExpiredTimers := false })
                (h.sets.congr rfl rfl rfl) hb.live hb.idle hb.nodup
              refine ⟨_, ?_, .finish now expired q hf hr⟩
              simp only [endRead, reset, hq, rearm_eq hr.consistent, ok_bind]

/-- What an action that succeeded has done. -/
theorem moves_of_ok {a : TimerAct} (h : LoopInv L) (hok : L.step a = .ok L') :
    Moves L a L' := by
  obtain ⟨L'', hok', hm⟩ := step_moves h a
  rw [hok] at hok'
  cases hok'
  exact hm

-- ========================================================= preservation

/-- A live timer in the batch or still fresh is not the free address a
new timer is put at. -/
theorem ne_of_live {p p' : Nat} (hfree : L.queue.heap p = none)
    (hlive : ∃ t, L.queue.heap p' = some t) : p' ≠ p := by
  obtain ⟨t, ht⟩ := hlive
  intro he
  rw [he, hfree] at ht
  cases ht

theorem loopInv_new (h : LoopInv L) {p : Nat} (w : Timestamp) (r : Bool)
    (d : Int64) (hp : p < UINTPTR_MAX) (hfree : L.queue.heap p = none) :
    LoopInv { L with
      queue := L.queue.newTimer p w r d
      fresh := p :: L.fresh
      obs := L.obs ++ [.issued ⟨p, L.queue.numCreated + 1⟩] } := by
  have hidle : ¬ Active L.queue p := by
    intro hact
    obtain ⟨t, ht⟩ := h.sets.live hact
    rw [hfree] at ht
    cases ht
  have hother : ∀ p', (∃ t, L.queue.heap p' = some t) →
      (L.queue.newTimer p w r d).heap p' = L.queue.heap p' := by
    intro p' hlive
    exact heap_newTimer_of_ne w r d (ne_of_live hfree hlive)
  constructor
  case sets =>
      exact (h.sets.setHeap _ hidle).congr rfl rfl rfl
  case bound =>
      intro p' t ht
      rcases heap_newTimer_inv ht with ⟨rfl, -⟩ | ⟨-, ht⟩
      · exact hp
      · exact h.bound p' t ht
  case seq_le =>
      intro p' t ht
      show t.sequence ≤ L.queue.numCreated + 1
      rcases heap_newTimer_inv ht with ⟨-, hs⟩ | ⟨-, ht⟩
      · omega
      · have := h.seq_le p' t ht
        omega
  case freshLive =>
      intro p' hp'
      rcases List.mem_cons.1 hp' with rfl | hp'
      · exact ⟨_, heap_newTimer_self ..⟩
      · obtain ⟨t, ht⟩ := h.freshLive p' hp'
        exact ⟨t, (hother p' ⟨t, ht⟩).trans ht⟩
  case freshIdle =>
      intro p' hp'
      rcases List.mem_cons.1 hp' with rfl | hp'
      · exact hidle
      · exact h.freshIdle p' hp'
  case freshNodup =>
      refine List.nodup_cons.2 ⟨fun hm => ?_, h.freshNodup⟩
      exact ne_of_live hfree (h.freshLive p hm) rfl
  case batch =>
      intro f hf
      have hb := h.batch f hf
      refine ⟨hb.ran, hb.nodup, ?_, hb.idle, ?_⟩
      · intro e he
        obtain ⟨t, ht⟩ := hb.live e he
        exact ⟨t, (hother _ ⟨t, ht⟩).trans ht⟩
      · intro e he hm
        rcases List.mem_cons.1 hm with hm | hm
        · exact ne_of_live hfree (hb.live e he) hm
        · exact hb.notFresh e he hm
  case calling =>
      exact h.calling
  case owned =>
      intro p' t ht
      rcases heap_newTimer_inv ht with ⟨rfl, -⟩ | ⟨-, ht⟩
      · exact .inr (.inl (List.mem_cons_self ..))
      · rcases h.owned p' t ht with ha | hf | hb
        · exact .inl ha
        · exact .inr (.inl (List.mem_cons_of_mem _ hf))
        · exact .inr (.inr hb)

theorem loopInv_add (h : LoopInv L) {p : Nat} {t : Timer}
    (hf : p ∈ L.fresh) (ht : L.queue.heap p = some t) (o : TimerObs) :
    LoopInv { L with
      queue := L.queue.added L.clock p t
      fresh := L.fresh.erase p
      obs := L.obs ++ [o] } := by
  obtain ⟨htim, hact, hheap, hnum, -, hcall⟩ :=
    added_frame L.queue L.clock p t
  have hcons : Consistent (L.queue.added L.clock p t) :=
    (h.sets.withTimer ht).congr htim hact hheap
  have hactive : ∀ p', Active (L.queue.added L.clock p t) p'
      ↔ p' = p ∨ Active L.queue p' := by
    intro p'
    unfold Active
    rw [hact]
    exact active_withTimer
  have hmem : ∀ p', p' ∈ L.fresh.erase p ↔ p' ≠ p ∧ p' ∈ L.fresh :=
    fun p' => h.freshNodup.mem_erase_iff
  constructor
  case sets =>
      exact hcons
  case bound =>
      intro p' t' ht'
      exact h.bound p' t' (by rw [← hheap]; exact ht')
  case seq_le =>
      intro p' t' ht'
      show t'.sequence ≤ (L.queue.added L.clock p t).numCreated
      rw [hnum]
      exact h.seq_le p' t' (by rw [← hheap]; exact ht')
  case freshLive =>
      intro p' hp'
      show ∃ t', (L.queue.added L.clock p t).heap p' = some t'
      rw [hheap]
      exact h.freshLive p' ((hmem p').1 hp').2
  case freshIdle =>
      intro p' hp' ha
      obtain ⟨hne, hp'⟩ := (hmem p').1 hp'
      rcases (hactive p').1 ha with he | ha
      · exact hne he
      · exact h.freshIdle p' hp' ha
  case freshNodup =>
      exact h.freshNodup.erase p
  case batch =>
      intro f hfr
      have hb := h.batch f hfr
      refine ⟨hb.ran, hb.nodup, ?_, ?_, ?_⟩
      · intro e he
        show ∃ t', (L.queue.added L.clock p t).heap e.timer = some t'
        rw [hheap]
        exact hb.live e he
      · intro e he ha
        rcases (hactive _).1 ha with hp | ha
        · exact hb.notFresh e he (by rw [hp]; exact hf)
        · exact hb.idle e he ha
      · intro e he hm
        exact hb.notFresh e he ((hmem _).1 hm).2
  case calling =>
      exact hcall.trans h.calling
  case owned =>
      intro p' t' ht'
      have ht'' : L.queue.heap p' = some t' := by
        rw [← hheap]
        exact ht'
      by_cases he : p' = p
      · exact .inl ((hactive p').2 (.inl he))
      · rcases h.owned p' t' ht'' with ha | hfr | hb
        · exact .inl ((hactive p').2 (.inr ha))
        · exact .inr (.inl ((hmem p').2 ⟨he, hfr⟩))
        · exact .inr (.inr hb)

theorem loopInv_drop (h : LoopInv L) {id : TimerId} {t : Timer}
    (hid : id ∈ L.queue.activeTimers) (ht : L.queue.heap id.timer = some t)
    (o : TimerObs) :
    LoopInv { L with
      queue := L.queue.dropped id t
      obs := L.obs ++ [o] } := by
  have hact : Active L.queue id.timer := ⟨_, hid⟩
  have hactive : ∀ {p : Nat}, Active (L.queue.dropped id t) p
      ↔ p ≠ id.timer ∧ Active L.queue p := active_dropped h.sets ht hid
  constructor
  case sets =>
      exact h.sets.dropped ht hid
  case bound =>
      intro p t' ht'
      exact h.bound p t' (heap_dropped_inv ht').2
  case seq_le =>
      intro p t' ht'
      exact h.seq_le p t' (heap_dropped_inv ht').2
  case freshLive =>
      intro p hp
      have hne : p ≠ id.timer := fun he => h.freshIdle p hp (he ▸ hact)
      obtain ⟨t', ht'⟩ := h.freshLive p hp
      exact ⟨t', (heap_dropped_of_ne t hne).trans ht'⟩
  case freshIdle =>
      intro p hp ha
      exact h.freshIdle p hp (hactive.1 ha).2
  case freshNodup =>
      exact h.freshNodup
  case batch =>
      intro f hf
      have hb := h.batch f hf
      refine ⟨hb.ran, hb.nodup, ?_, ?_, hb.notFresh⟩
      · intro e he
        have hne : e.timer ≠ id.timer := fun hp => hb.idle e he (hp ▸ hact)
        obtain ⟨t', ht'⟩ := hb.live e he
        exact ⟨t', (heap_dropped_of_ne t hne).trans ht'⟩
      · intro e he ha
        exact hb.idle e he (hactive.1 ha).2
  case calling =>
      exact h.calling
  case owned =>
      intro p t' ht'
      obtain ⟨hne, hold⟩ := heap_dropped_inv ht'
      rcases h.owned p t' hold with ha | hf | hb
      · exact .inl (hactive.2 ⟨hne, ha⟩)
      · exact .inr (.inl hf)
      · exact .inr (.inr hb)

theorem loopInv_begin (h : LoopInv L) (hf : L.frame = none)
    {expired : List Entry} {q : TimerQueue}
    (hq : Expired
      { L.queue with timerfd := readTimerfd L.queue.timerfd L.clock }
      L.clock expired q) :
    LoopInv { L with
      queue := { q with
        callingExpiredTimers := true
        cancelingTimers := .empty }
      frame := some ⟨L.clock, expired, expired⟩ } := by
  have hheap : q.heap = L.queue.heap := hq.heap
  have hwas : ∀ e ∈ expired, Active L.queue e.timer := by
    intro e he
    exact h.sets.active_of_mem ((hq.due e).1 he).1
  constructor
  case sets =>
      exact hq.consistent.congr rfl rfl rfl
  case bound =>
      intro p t ht
      exact h.bound p t (by rw [← hheap]; exact ht)
  case seq_le =>
      intro p t ht
      show t.sequence ≤ q.numCreated
      rw [hq.numCreated]
      exact h.seq_le p t (by rw [← hheap]; exact ht)
  case freshLive =>
      intro p hp
      show ∃ t, q.heap p = some t
      rw [hheap]
      exact h.freshLive p hp
  case freshIdle =>
      intro p hp ha
      exact h.freshIdle p hp ((hq.active p).1 ha).1
  case freshNodup =>
      exact h.freshNodup
  case batch =>
      intro f hf'
      cases hf'
      refine ⟨⟨[], rfl⟩, hq.nodup, ?_, ?_, ?_⟩
      · intro e he
        show ∃ t, q.heap e.timer = some t
        rw [hheap]
        exact h.sets.live (hwas e he)
      · intro e he ha
        exact ((hq.active _).1 ha).2 (List.mem_map_of_mem he)
      · intro e he hm
        exact h.freshIdle _ hm (hwas e he)
  case calling =>
      rfl
  case owned =>
      intro p t ht
      rcases h.owned p t (by rw [← hheap]; exact ht) with ha | hfr | ⟨f, hf', -⟩
      · by_cases hp : p ∈ expired.map Entry.timer
        · exact .inr (.inr ⟨_, rfl, hp⟩)
        · exact .inl ((hq.active p).2 ⟨ha, hp⟩)
      · exact .inr (.inl hfr)
      · rw [hf] at hf'
        cases hf'

theorem loopInv_finish (h : LoopInv L) {now : Timestamp}
    {expired : List Entry} {q : TimerQueue}
    (hf : L.frame = some ⟨now, expired, []⟩)
    (hr : Reset { L.queue with callingExpiredTimers := false }
      now expired q) :
    LoopInv { L with queue := q.rearmed L.clock, frame := none } := by
  obtain ⟨htim, hact, hheap, hnum, -, hcall⟩ := rearmed_frame q L.clock
  have hb := h.batch _ hf
  have hactive : ∀ p, Active (q.rearmed L.clock) p ↔ Active q p := by
    intro p
    unfold Active
    rw [hact]
  -- a timer alive after the batch was alive before, with its number
  have hold : ∀ {p : Nat} {t : Timer}, q.heap p = some t →
      ∃ t₀, L.queue.heap p = some t₀ ∧ t.sequence = t₀.sequence := by
    intro p t ht
    rcases hr.live_inv hb.live ht with ⟨-, ht⟩ | ⟨-, t₀, ht₀, -, hs⟩
    · exact ⟨t, ht, rfl⟩
    · exact ⟨t₀, ht₀, hs⟩
  have hfresh : ∀ p ∈ L.fresh, p ∉ expired.map Entry.timer := by
    intro p hp hm
    obtain ⟨e, he, rfl⟩ := List.mem_map.1 hm
    exact hb.notFresh e he hp
  constructor
  case sets =>
      exact hr.consistent.congr htim hact hheap
  case bound =>
      intro p t ht
      rw [show (q.rearmed L.clock).heap = q.heap from hheap] at ht
      obtain ⟨t₀, ht₀, -⟩ := hold ht
      exact h.bound p t₀ ht₀
  case seq_le =>
      intro p t ht
      rw [show (q.rearmed L.clock).heap = q.heap from hheap] at ht
      show t.sequence ≤ (q.rearmed L.clock).numCreated
      rw [hnum, hr.numCreated]
      obtain ⟨t₀, ht₀, hs⟩ := hold ht
      rw [hs]
      exact h.seq_le p t₀ ht₀
  case freshLive =>
      intro p hp
      show ∃ t, (q.rearmed L.clock).heap p = some t
      rw [hheap, hr.other p (hfresh p hp)]
      exact h.freshLive p hp
  case freshIdle =>
      intro p hp ha
      rw [hactive, hr.active p (hfresh p hp)] at ha
      exact h.freshIdle p hp ha
  case freshNodup =>
      exact h.freshNodup
  case batch =>
      intro f hf'
      cases hf'
  case calling =>
      exact hcall.trans hr.calling
  case owned =>
      intro p t ht
      rw [show (q.rearmed L.clock).heap = q.heap from hheap] at ht
      rw [hactive]
      rcases hr.live_inv hb.live ht with ⟨hp, ht⟩ | ⟨ha, -⟩
      · rcases h.owned p t ht with ha | hfr | ⟨f, hf', hm⟩
        · exact .inl ((hr.active p hp).2 ha)
        · exact .inr (.inl hfr)
        · rw [hf] at hf'
          cases hf'
          exact absurd hm hp
      · exact .inl ha

/-- The invariant reads the sets, the objects, `fresh` and the batch; of
the batch's progress only that it is run from front to back. -/
theorem LoopInv.congr (h : LoopInv L) (ht : L'.queue.timers = L.queue.timers)
    (ha : L'.queue.activeTimers = L.queue.activeTimers)
    (hh : L'.queue.heap = L.queue.heap)
    (hn : L'.queue.numCreated = L.queue.numCreated)
    (hc : L'.queue.callingExpiredTimers = L.queue.callingExpiredTimers)
    (hfr : L'.fresh = L.fresh)
    (hframe : L'.frame.map HandleRead.expired = L.frame.map HandleRead.expired)
    (hran : ∀ f, L'.frame = some f → ∃ ran, f.expired = ran ++ f.rest) :
    LoopInv L' := by
  have hactive : ∀ p, Active L'.queue p ↔ Active L.queue p := by
    intro p
    unfold Active
    rw [ha]
  have hback : ∀ {f' : HandleRead}, L'.frame = some f' →
      ∃ f, L.frame = some f ∧ f.expired = f'.expired := by
    intro f' hf'
    rw [hf'] at hframe
    exact Option.map_eq_some_iff.1 hframe.symm
  refine ⟨h.sets.congr ht ha hh, ?_, ?_, ?_, ?_, ?_, ?_, ?_, ?_⟩
  · rw [hh]
    exact h.bound
  · rw [hh, hn]
    exact h.seq_le
  · rw [hh, hfr]
    exact h.freshLive
  · intro p hp
    rw [hactive]
    exact h.freshIdle p (hfr ▸ hp)
  · rw [hfr]
    exact h.freshNodup
  · intro f' hf'
    obtain ⟨f, hf, he⟩ := hback hf'
    have hb := h.batch f hf
    refine ⟨hran f' hf', ?_, ?_, ?_, ?_⟩
    · rw [← he]
      exact hb.nodup
    · rw [← he, hh]
      exact hb.live
    · intro e hmem
      rw [hactive]
      exact hb.idle e (by rw [he]; exact hmem)
    · rw [← he, hfr]
      exact hb.notFresh
  · rw [hc, h.calling]
    have := congrArg Option.isSome hframe
    simpa using this.symm
  · intro p t hpt
    rw [hactive, hfr]
    rcases h.owned p t (by rw [← hh]; exact hpt) with hp | hp | ⟨f, hf, hp⟩
    · exact .inl hp
    · exact .inr (.inl hp)
    · rw [hf] at hframe
      obtain ⟨f', hf', he⟩ := Option.map_eq_some_iff.1 hframe
      exact .inr (.inr ⟨f', hf', by rw [he]; exact hp⟩)

theorem loopInv_moves {a : TimerAct} (h : LoopInv L) (hm : Moves L a L') :
    LoopInv L' := by
  cases hm with
  | stay => exact h
  | tick t =>
      exact h.congr rfl rfl rfl rfl rfl rfl rfl fun f hf => (h.batch f hf).ran
  | new p w r d hp hfree => exact loopInv_new h w r d hp hfree
  | add p t hf ht => exact loopInv_add h hf ht _
  | drop id t hid ht => exact loopInv_drop h hid ht _
  | mark id =>
      exact h.congr rfl rfl rfl rfl rfl rfl rfl fun f hf => (h.batch f hf).ran
  | miss id =>
      exact h.congr rfl rfl rfl rfl rfl rfl rfl fun f hf => (h.batch f hf).ran
  | begin hf expired q hq => exact loopInv_begin h hf hq
  | run now expired e rest t hf ht =>
      refine h.congr rfl rfl rfl rfl rfl rfl (by rw [hf]; rfl) ?_
      intro f hf'
      cases hf'
      obtain ⟨ran, hran⟩ := (h.batch _ hf).ran
      exact ⟨ran ++ [e], by simpa using hran⟩
  | finish now expired q hf hr => exact loopInv_finish h hf hr

-- ======================================================= the wall clock

/-- What an action of the machine with the wall clock can make of
`L`. -/
inductive WallMoves (L : TimerLoop) : WallAct → TimerLoop → Prop
  | set (t : Timestamp) : WallMoves L (.set t) { L with clock := t }
  | act (a : TimerAct) (L' : TimerLoop) (hm : Moves L a L') :
      WallMoves L (.act a) L'

theorem wallStep_moves (h : LoopInv L) (a : WallAct) :
    ∃ L', L.wallStep a = .ok L' ∧ WallMoves L a L' := by
  cases a with
  | set t => exact ⟨_, rfl, .set t⟩
  | act a =>
      obtain ⟨L', hok, hm⟩ := step_moves h a
      exact ⟨L', hok, .act a L' hm⟩

theorem wallMoves_of_ok {a : WallAct} (h : LoopInv L)
    (hok : L.wallStep a = .ok L') : WallMoves L a L' := by
  cases a with
  | set t =>
      cases hok
      exact .set t
  | act a => exact .act a L' (moves_of_ok h hok)

/-- The time of the clock does not enter the invariant. -/
theorem LoopInv.setClock (h : LoopInv L) (t : Timestamp) :
    LoopInv { L with clock := t } :=
  h.congr rfl rfl rfl rfl rfl rfl rfl fun f hf => (h.batch f hf).ran

theorem loopInv_wall {a : WallAct} (h : LoopInv L) (hm : WallMoves L a L') :
    LoopInv L' := by
  cases hm with
  | set t => exact h.setClock t
  | act a L' hm => exact loopInv_moves h hm

theorem loopInv_wallStep {a : WallAct} (h : LoopInv L)
    (hok : L.wallStep a = .ok L') : LoopInv L' :=
  loopInv_wall h (wallMoves_of_ok h hok)

/-- No run fails, from any state that meets the invariant. -/
theorem loopInv_wallRun (h : LoopInv L) (acts : List WallAct) :
    ∃ L', run wallStep L acts = .ok L' ∧ LoopInv L' := by
  refine run_safe (C := fun _ _ => True) (fun L a h _ => ?_) h
    (along_of_forall (fun _ _ => trivial) acts _)
  obtain ⟨L', hok, hm⟩ := wallStep_moves h a
  exact ⟨L', hok, loopInv_wall h hm⟩

theorem loopInv_of_wallRun {acts : List WallAct} (h : LoopInv L)
    (hrun : run wallStep L acts = .ok L') : LoopInv L' :=
  run_inv_all (fun _ _ _ h hok => loopInv_wallStep h hok) h hrun

-- ============================================================ every run

/-- `timers_` is `{(t->expiration(), t)}` and `activeTimers_` is
`{(t, t->sequence())}`, for one and the same set of live timers. -/
def SetsAgree (q : TimerQueue) : Prop :=
  ∃ live : Set Nat,
    (∀ p ∈ live, ∃ t, q.heap p = some t)
      ∧ (∀ e, e ∈ q.timers
        ↔ ∃ p ∈ live, ∃ t, q.heap p = some t ∧ e = ⟨t.expiration, p⟩)
      ∧ ∀ id, id ∈ q.activeTimers
        ↔ ∃ p ∈ live, ∃ t, q.heap p = some t ∧ id = ⟨p, t.sequence⟩

theorem setsAgree_of_consistent {q : TimerQueue} (h : Consistent q) :
    SetsAgree q := by
  refine ⟨{p | Active q p}, fun p hp => h.live hp, ?_, ?_⟩
  · intro e
    constructor
    · intro he
      obtain ⟨t, ht, hw, -⟩ := h.timers e he
      exact ⟨e.timer, h.active_of_mem he, t, ht, by rw [hw]⟩
    · intro he
      obtain ⟨p, ⟨s, hs⟩, t, ht, rfl⟩ := he
      exact (h.mem_active hs ht).2
  · intro id
    constructor
    · intro hid
      obtain ⟨t, ht, hs, -⟩ := h.active id hid
      exact ⟨id.timer, ⟨_, hid⟩, t, ht, by rw [hs]⟩
    · intro hid
      obtain ⟨p, hp, t, ht, rfl⟩ := hid
      exact (h.active_iff ht).1 hp

/-- Whatever the actions, whatever the callbacks do and to whatever time
the clock is set, no assertion of the queue fails and its two sets hold
the same live timers. -/
theorem setsAgree_run (clock : Timestamp) (acts : List WallAct) :
    ∃ L, run wallStep (create clock) acts = .ok L ∧ SetsAgree L.queue := by
  obtain ⟨L, hrun, h⟩ := loopInv_wallRun (loopInv_create clock) acts
  exact ⟨L, hrun, setsAgree_of_consistent h.sets⟩

end TimerLoop

end Cobra
