/-
A cancel that comes too late: what it leaves behind, and why nobody
notices.

A timer is `Spent` when nothing is to come of it: it is gone, or it is in
the batch in progress and `reset` is going to delete it, because it does
not repeat or because it was cancelled. No action undoes that
(`spent_moves`). A cancel with the identifier of a spent timer finds
nothing in `activeTimers_`; all it can do is to leave its mark in
`cancelingTimers_`.

`step_marked` runs two loops side by side that differ in such a mark.
Only `reset` consults the marks, and only those of repeating timers of
the batch, each under its own number: a timer at a reused address has
another. So the two stay in step, action by action, and do the same to
every timer.
-/
import Cobra.Proofs.TimerCancel

namespace Cobra

open Machine

namespace TimerQueue

variable {q q' : TimerQueue} {c : OrdSet TimerId}

-- ======================================================= other marks

/-- The queue with other marks in `cancelingTimers_`. -/
def withMarks (q : TimerQueue) (c : OrdSet TimerId) : TimerQueue :=
  { q with cancelingTimers := c }

theorem Consistent.withMarks (h : Consistent q) (c : OrdSet TimerId) :
    Consistent (q.withMarks c) := h.congr rfl rfl rfl

/-- Neither does an insertion look at the marks nor change them. -/
theorem insert_withMarks {p : Nat} {b : Bool}
    (h : q.insert p = .ok (b, q')) :
    (q.withMarks c).insert p = .ok (b, q'.withMarks c)
      ∧ q'.heap = q.heap ∧ q'.cancelingTimers = q.cancelingTimers := by
  unfold insert at h
  obtain ⟨_, hbefore, h⟩ := bind_ok_inv h
  obtain ⟨t, ht, h⟩ := bind_ok_inv h
  obtain ⟨_, htimers, h⟩ := bind_ok_inv h
  obtain ⟨_, hactive, h⟩ := bind_ok_inv h
  obtain ⟨_, hafter, h⟩ := bind_ok_inv h
  cases h
  refine ⟨?_, rfl, rfl⟩
  unfold insert
  rw [require_bind (show (q.withMarks c).sizesEqual from require_inv hbefore),
    show (q.withMarks c).deref p = .ok t from ht, ok_bind,
    require_bind (show _ ∉ (q.withMarks c).timers from require_inv htimers)]
  apply (require_bind (require_inv hactive) _).trans
  exact require_bind (require_inv hafter) _

theorem addTimerInLoop_withMarks (h : Consistent q) (now : Timestamp)
    {p : Nat} {t : Timer} (ht : q.heap p = some t) (hp : ¬ Active q p) :
    (q.withMarks c).addTimerInLoop now p
      = .ok ((q.added now p t).withMarks c) := by
  have hadded : (q.withMarks c).added now p t
      = (q.added now p t).withMarks c := by
    unfold added
    show (if q.isEarliest t.expiration then _ else _) = _
    split <;> rfl
  rw [← hadded]
  exact addTimerInLoop_eq (h.withMarks c) now ht hp

theorem eraseActive_withMarks : ∀ {es : List Entry} {q q' : TimerQueue},
    q.eraseActive es = .ok q' →
    (q.withMarks c).eraseActive es = .ok (q'.withMarks c) := by
  intro es
  induction es with
  | nil =>
      intro q q' h
      cases h
      rfl
  | cons e es ih =>
      intro q q' h
      rw [eraseActive] at h ⊢
      obtain ⟨t, ht, h⟩ := bind_ok_inv h
      obtain ⟨_, hmem, h⟩ := bind_ok_inv h
      rw [show (q.withMarks c).deref e.timer = .ok t from ht, ok_bind]
      apply (require_bind (require_inv hmem) _).trans
      exact ih h

theorem getExpired_withMarks {now : Timestamp} {expired : List Entry}
    (h : q.getExpired now = .ok (expired, q')) :
    (q.withMarks c).getExpired now = .ok (expired, q'.withMarks c) := by
  unfold getExpired at h
  obtain ⟨_, hbefore, h⟩ := bind_ok_inv h
  obtain ⟨_, hend, h⟩ := bind_ok_inv h
  obtain ⟨q₁, herase, h⟩ := bind_ok_inv h
  obtain ⟨_, hafter, h⟩ := bind_ok_inv h
  cases h
  unfold getExpired
  rw [require_bind (show (q.withMarks c).sizesEqual from require_inv hbefore)]
  apply (require_bind (require_inv hend) _).trans
  dsimp only
  apply (congrArg (· >>= _) (eraseActive_withMarks (c := c) herase)).trans
  rw [ok_bind]
  exact require_bind (require_inv hafter) _

/-- The marks `c` say the same about every repeating timer. -/
def MarksAgree (q : TimerQueue) (c : OrdSet TimerId) : Prop :=
  ∀ p t, q.heap p = some t → t.repeat_ = true →
    (⟨p, t.sequence⟩ ∈ c ↔ ⟨p, t.sequence⟩ ∈ q.cancelingTimers)

theorem MarksAgree.restart (h : MarksAgree q c) {p : Nat} {t : Timer}
    (ht : q.heap p = some t) (now : Timestamp) :
    MarksAgree (q.setHeap p (some (t.restart now))) c := by
  intro p' t' ht' hrep
  by_cases hp : p' = p
  · subst hp
    rw [heap_setHeap_self] at ht'
    cases ht'
    have hsame : (t.restart now).sequence = t.sequence
        ∧ (t.restart now).repeat_ = t.repeat_ := by
      unfold Timer.restart
      split <;> exact ⟨rfl, rfl⟩
    rw [hsame.2] at hrep
    rw [hsame.1]
    exact h p' t ht hrep
  · rw [heap_setHeap_of_ne _ hp] at ht'
    exact h p' t' ht' hrep

theorem MarksAgree.delete (h : MarksAgree q c) (p : Nat) :
    MarksAgree (q.setHeap p none) c := by
  intro p' t' ht' hrep
  by_cases hp : p' = p
  · subst hp
    rw [heap_setHeap_self] at ht'
    cases ht'
  · rw [heap_setHeap_of_ne _ hp] at ht'
    exact h p' t' ht' hrep

theorem deref_inv {p : Nat} {t : Timer} (h : q.deref p = .ok t) :
    q.heap p = some t := by
  unfold deref at h
  split at h
  next t' ht' =>
    cases h
    exact ht'
  next => cases h

theorem delete_inv {p : Nat} (h : q.delete p = .ok q') :
    q' = q.setHeap p none := by
  unfold delete at h
  split at h
  next =>
    cases h
    rfl
  next => cases h

/-- `reset` treats every timer of the batch the same under either
marks. -/
theorem resetEach_withMarks (now : Timestamp) :
    ∀ {es : List Entry} {q q' : TimerQueue}, MarksAgree q c →
      q.resetEach now es = .ok q' →
      (q.withMarks c).resetEach now es = .ok (q'.withMarks c) := by
  intro es
  induction es with
  | nil =>
      intro q q' _ h
      cases h
      rfl
  | cons e es ih =>
      intro q q' hagree h
      rw [resetEach] at h ⊢
      obtain ⟨t, ht, h⟩ := bind_ok_inv h
      rw [show (q.withMarks c).deref e.timer = .ok t from ht, ok_bind]
      have hheap := deref_inv ht
      have hcond : (t.repeat_ && decide
            (⟨e.timer, t.sequence⟩ ∉ (q.withMarks c).cancelingTimers))
          = (t.repeat_ && decide
            (⟨e.timer, t.sequence⟩ ∉ q.cancelingTimers)) := by
        cases hrep : t.repeat_ with
        | false => rfl
        | true =>
            rw [Bool.true_and, Bool.true_and]
            exact decide_eq_decide.2 (not_congr (hagree _ t hheap hrep))
      rw [hcond]
      split at h
      next hkept =>
        rw [if_pos hkept]
        obtain ⟨⟨b, q₁⟩, hins, h⟩ := bind_ok_inv h
        obtain ⟨hins', hh, hc⟩ := insert_withMarks (c := c) hins
        apply (congrArg (· >>= _) hins').trans
        refine ih (fun p' t' ht' hrep => ?_) h
        rw [hc]
        rw [hh] at ht'
        exact hagree.restart hheap now p' t' ht' hrep
      next hgone =>
        rw [if_neg hgone]
        obtain ⟨q₁, hdel, h⟩ := bind_ok_inv h
        have hq₁ := delete_inv hdel
        subst hq₁
        rw [delete_eq (q := q.withMarks c) hheap, ok_bind]
        exact ih (hagree.delete e.timer) h

theorem rearm_withMarks (h : Consistent q) (clock : Timestamp) :
    (q.withMarks c).rearm clock = .ok ((q.rearmed clock).withMarks c) := by
  have hrearmed : (q.withMarks c).rearmed clock
      = (q.rearmed clock).withMarks c := by
    unfold rearmed
    rw [show (q.withMarks c).timers.first? = q.timers.first? from rfl]
    cases q.timers.first? with
    | none => rfl
    | some e =>
        dsimp only
        split <;> rfl
  rw [← hrearmed]
  exact rearm_eq (h.withMarks c) clock

end TimerQueue

namespace TimerLoop

open TimerQueue

variable {L L' : TimerLoop} {id : TimerId}

-- ========================================================= spent timers

/-- Nothing is to come of the timer: it is gone, or in the batch and about
to be deleted. -/
def Spent (L : TimerLoop) (id : TimerId) : Prop :=
  InBatch (fun _ t c => t.repeat_ = false ∨ id ∈ c) L id

/-- Spent is for good. -/
theorem spent_moves {a : TimerAct} (hinv : LoopInv L) (hm : Moves L a L')
    (h : Spent L id) : Spent L' id := by
  have hlasting : Lasting id fun _ t c => t.repeat_ = false ∨ id ∈ c :=
    ⟨fun hx id' => hx.imp_right fun hc => OrdSet.mem_insert.2 (.inr hc),
      fun hx => hx, fun hx => hx⟩
  exact inBatch_moves hlasting hinv hm h

/-- A spent timer is not in the queue. -/
theorem Spent.not_active (h : Spent L id) (hinv : LoopInv L) :
    id ∉ L.queue.activeTimers := by
  intro hid
  obtain ⟨t, ht, hs, -⟩ := hinv.sets.active id hid
  obtain ⟨f, hf, hin, -⟩ := h.2 t ht hs
  obtain ⟨e, he, hp⟩ := List.mem_map.1 hin
  apply (hinv.batch f hf).idle e he
  rw [hp]
  exact ⟨_, hid⟩

/-- A timer that was inserted and is cancelled is spent. -/
theorem spent_of_cancel (hinv : LoopInv L)
    (hm : Moves L (.cancelInLoop id) L')
    (hseq : id.sequence ≤ L.queue.numCreated) (hfresh : ¬ Fresh L id) :
    Spent L' id :=
  inBatch_of_cancel hinv hm hseq hfresh fun _ _ _ _ _ =>
    .inr (OrdSet.mem_insert.2 (.inl rfl))

/-- A timer of the batch that does not repeat is spent. -/
theorem spent_of_batch {f : HandleRead} {e : Entry} {t : Timer}
    (hinv : LoopInv L) (hf : L.frame = some f) (he : e ∈ f.expired)
    (ht : L.queue.heap e.timer = some t) (hrep : t.repeat_ = false) :
    Spent L ⟨e.timer, t.sequence⟩ := by
  refine ⟨hinv.seq_le _ t ht, fun t' ht' _ => ?_⟩
  rw [show L.queue.heap e.timer = some t' from ht'] at ht
  cases ht
  exact ⟨f, hf, List.mem_map_of_mem he, .inl hrep⟩

-- ========================================================== side by side

/-- The loop with other marks and another log. -/
def marked (L : TimerLoop) (c : OrdSet TimerId) (obs : List TimerObs) :
    TimerLoop :=
  { L with queue := L.queue.withMarks c, obs := obs }

/-- The marks `c` are those of `L`, but for one more of `id` perhaps. -/
structure SameMarks (L : TimerLoop) (id : TimerId) (c : OrdSet TimerId) :
    Prop where
  other : ∀ id', id' ≠ id → (id' ∈ c ↔ id' ∈ L.queue.cancelingTimers)
  own : id ∈ L.queue.cancelingTimers → id ∈ c

/-- That one more is of no consequence. -/
theorem SameMarks.agree {c : OrdSet TimerId} (h : SameMarks L id c)
    (hspent : Spent L id) : MarksAgree L.queue c := by
  intro p t ht hrep
  by_cases hid : (⟨p, t.sequence⟩ : TimerId) = id
  · subst hid
    obtain ⟨f, -, -, hmark⟩ := hspent.2 t ht rfl
    rcases hmark with hrep' | hmark
    · rw [hrep] at hrep'
      cases hrep'
    · exact iff_of_true (h.own hmark) hmark
  · exact h.other _ hid

theorem SameMarks.insert {c : OrdSet TimerId} (h : SameMarks L id c)
    (id' : TimerId) (hc : L'.queue.cancelingTimers
      = L.queue.cancelingTimers.insert id') :
    SameMarks L' id (c.insert id') := by
  constructor
  case other =>
      intro x hx
      rw [hc, OrdSet.mem_insert, OrdSet.mem_insert, h.other x hx]
  case own =>
      intro hmem
      rw [hc] at hmem
      rw [OrdSet.mem_insert] at hmem ⊢
      exact hmem.imp_right h.own

theorem SameMarks.congr {c : OrdSet TimerId} (h : SameMarks L id c)
    (hc : L'.queue.cancelingTimers = L.queue.cancelingTimers) :
    SameMarks L' id c where
  other := by rw [hc]; exact h.other
  own := by rw [hc]; exact h.own

/-- The action does to the marked loop what it does to `L`, and leaves it
marked. -/
def InStepMarked (L : TimerLoop) (id : TimerId) (c : OrdSet TimerId)
    (obs : List TimerObs) (a : TimerAct) (L' : TimerLoop) : Prop :=
  ∃ c' new, (L.marked c obs).step a = .ok (L'.marked c' (obs ++ new))
    ∧ L'.obs = L.obs ++ new ∧ SameMarks L' id c'

section Marked

variable {c : OrdSet TimerId} {o : List TimerObs}

/-- An action that does nothing. -/
theorem inStepMarked_stay {a : TimerAct} (hc : SameMarks L id c)
    (hok : (L.marked c o).step a = .ok (L.marked c o)) :
    InStepMarked L id c o a L := by
  refine ⟨c, [], ?_, (List.append_nil _).symm, hc⟩
  rw [List.append_nil]
  exact hok

theorem inStepMarked_add {p : Nat} (hinv : LoopInv L)
    (hc : SameMarks L id c) (hok : L.step (.addTimerInLoop p) = .ok L') :
    InStepMarked L id c o (.addTimerInLoop p) L' := by
  simp only [step] at hok
  split at hok
  next hp =>
    obtain ⟨t, ht⟩ := hinv.freshLive p hp
    have hidle := hinv.freshIdle p hp
    simp only [idOf, deref_eq ht, ok_bind,
      addTimerInLoop_eq hinv.sets L.clock ht hidle] at hok
    cases hok
    refine ⟨c, [.inserted ⟨p, t.sequence⟩], ?_, rfl, hc.congr ?_⟩
    · have ht' : (L.marked c o).queue.heap p = some t := ht
      have hadd : (L.marked c o).queue.addTimerInLoop
          (L.marked c o).clock p
          = .ok ((L.queue.added L.clock p t).withMarks c) :=
        addTimerInLoop_withMarks hinv.sets L.clock ht hidle
      simp only [step]
      rw [if_pos (show p ∈ (L.marked c o).fresh from hp)]
      simp only [idOf, deref_eq ht', hadd, ok_bind]
      rfl
    · exact (added_frame L.queue L.clock p t).2.2.2.2.1
  next hp =>
    cases hok
    refine inStepMarked_stay hc ?_
    simp only [step]
    exact if_neg hp

theorem inStepMarked_cancel {id' : TimerId} (hinv : LoopInv L)
    (hc : SameMarks L id c) (hok : L.step (.cancelInLoop id') = .ok L') :
    InStepMarked L id c o (.cancelInLoop id') L' := by
  have hcons : Consistent (L.marked c o).queue := hinv.sets.withMarks c
  by_cases hid : id' ∈ L.queue.activeTimers
  · obtain ⟨t, ht, -⟩ := hinv.sets.active id' hid
    simp only [step, cancelInLoop_active hinv.sets ht hid, ok_bind] at hok
    cases hok
    refine ⟨c, [.cancelled id'], ?_, rfl, hc.congr rfl⟩
    simp only [step, cancelInLoop_active hcons
      (show (L.marked c o).queue.heap id'.timer = some t from ht)
      (show id' ∈ (L.marked c o).queue.activeTimers from hid), ok_bind]
    rfl
  · simp only [step, cancelInLoop_inactive hinv.sets hid, ok_bind] at hok
    have hmarked := cancelInLoop_inactive hcons
      (show id' ∉ (L.marked c o).queue.activeTimers from hid)
    by_cases hcall : L.queue.callingExpiredTimers = true
    · rw [if_pos hcall] at hok
      cases hok
      refine ⟨c.insert id', [.cancelled id'], ?_, rfl, hc.insert id' rfl⟩
      rw [if_pos (show (L.marked c o).queue.callingExpiredTimers = true
        from hcall)] at hmarked
      simp only [step, hmarked, ok_bind]
      rfl
    · rw [if_neg hcall] at hok
      cases hok
      refine ⟨c, [.cancelled id'], ?_, rfl, hc.congr rfl⟩
      rw [if_neg (show ¬ (L.marked c o).queue.callingExpiredTimers = true
        from hcall)] at hmarked
      simp only [step, hmarked, ok_bind]
      rfl

/-- The start of a `handleRead` clears the marks. -/
theorem inStepMarked_begin (hc : SameMarks L id c)
    (hok : L.step .beginRead = .ok L') :
    InStepMarked L id c o .beginRead L' := by
  simp only [step] at hok
  cases hf : L.frame with
  | some f =>
      rw [hf] at hok
      cases hok
      refine inStepMarked_stay hc ?_
      simp only [step, show (L.marked c o).frame = some f from hf]
  | none =>
      rw [hf] at hok
      unfold beginRead at hok
      obtain ⟨⟨expired, q⟩, hget, h⟩ := bind_ok_inv hok
      cases h
      refine ⟨.empty, [], ?_, (List.append_nil _).symm,
        fun _ _ => Iff.rfl, fun h => h⟩
      simp only [step, show (L.marked c o).frame = none from hf]
      unfold beginRead
      apply (congrArg (· >>= _) (getExpired_withMarks (c := c) hget)).trans
      rw [ok_bind, List.append_nil]
      rfl

theorem inStepMarked_run (hc : SameMarks L id c)
    (hok : L.step .runNext = .ok L') :
    InStepMarked L id c o .runNext L' := by
  simp only [step] at hok
  split at hok
  next now expired e rest hf =>
    obtain ⟨id', hid, h⟩ := bind_ok_inv hok
    cases h
    refine ⟨c, [.started id'], ?_, rfl, hc.congr rfl⟩
    simp only [step, show (L.marked c o).frame
      = some ⟨now, expired, e :: rest⟩ from hf]
    rw [show (L.marked c o).idOf e.timer = .ok id' from hid]
    rfl
  next hno =>
    cases hok
    refine inStepMarked_stay hc ?_
    simp only [step]
    split
    next now expired e rest hf => exact absurd hf (hno now expired e rest)
    next => rfl

/-- The end of a `handleRead` consults them. -/
theorem inStepMarked_end (hinv : LoopInv L) (hspent : Spent L id)
    (hc : SameMarks L id c) (hok : L.step .endRead = .ok L') :
    InStepMarked L id c o .endRead L' := by
  simp only [step] at hok
  split at hok
  next now expired hf =>
    have hb := hinv.batch _ hf
    obtain ⟨q, hq, hr⟩ := resetEach_ok now expired
      (q := { L.queue with callingExpiredTimers := false })
      (hinv.sets.congr rfl rfl rfl) hb.live hb.idle hb.nodup
    simp only [endRead, reset, hq, rearm_eq hr.consistent, ok_bind] at hok
    cases hok
    refine ⟨c, [], ?_, (List.append_nil _).symm, hc.congr ?_⟩
    · have hmarks : MarksAgree
          { L.queue with callingExpiredTimers := false } c :=
        hc.agree hspent
      have hq' := resetEach_withMarks now hmarks hq
      have hrearm := rearm_withMarks (c := c) hr.consistent L.clock
      simp only [step, show (L.marked c o).frame = some ⟨now, expired, []⟩
        from hf]
      unfold endRead reset
      apply (congrArg (· >>= _) ((congrArg (· >>= _) hq').trans hrearm)).trans
      rw [ok_bind, List.append_nil]
      rfl
    · exact (rearmed_frame q L.clock).2.2.2.2.1.trans hr.canceling
  next hno =>
    cases hok
    refine inStepMarked_stay hc ?_
    simp only [step]
    split
    next now expired hf => exact absurd hf (hno now expired)
    next => rfl

/-- One action. -/
theorem step_marked {a : TimerAct} (hinv : LoopInv L) (hspent : Spent L id)
    (hc : SameMarks L id c) (hok : L.step a = .ok L') :
    InStepMarked L id c o a L' := by
  cases a with
  | tick t =>
      simp only [step] at hok
      split at hok
      next ht =>
        cases hok
        refine ⟨c, [], ?_, (List.append_nil _).symm, hc.congr rfl⟩
        rw [List.append_nil]
        simp only [step]
        exact if_pos ht
      next ht =>
        cases hok
        refine inStepMarked_stay hc ?_
        simp only [step]
        exact if_neg ht
  | newTimer p w r d =>
      simp only [step] at hok
      split at hok
      next hp =>
        cases hok
        refine ⟨c, _, ?_, rfl, hc.congr rfl⟩
        simp only [step]
        exact if_pos hp
      next hp =>
        cases hok
        refine inStepMarked_stay hc ?_
        simp only [step]
        exact if_neg hp
  | addTimerInLoop p => exact inStepMarked_add hinv hc hok
  | cancelInLoop id' => exact inStepMarked_cancel hinv hc hok
  | beginRead => exact inStepMarked_begin hc hok
  | runNext => exact inStepMarked_run hc hok
  | endRead => exact inStepMarked_end hinv hspent hc hok

end Marked

end TimerLoop

end Cobra
