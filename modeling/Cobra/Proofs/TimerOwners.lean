/-
Every `Timer` object has one owner, is deleted once and is not used
afterwards, whatever addresses the allocator reuses; and a cancel that
comes too late touches nothing.

# Ownership

`OwnerInv` ties the pointers in use to the objects: the pointers are
exactly the objects that exist, each under its own number
(`OwnerInv.pointers`), and the deleted ones are not among them. It rests
on two facts about one action. What the loop's side has a pointer to
afterwards exists afterwards (`live_of_holds`), and an address that is in
use before and after has the same object before and after
(`sequence_moves`): the allocator can only reuse an address that no
pointer has. Inside one action nothing is allocated but by `newTimer`,
which reads nothing, so an access that finds an object finds one that was
there when the action began.

# Late cancels

A one-shot timer that has fired and a timer that was cancelled are spent.
A cancel with the identifier of such a timer leaves a mark at most, and a
run from there goes the way it goes without the mark (`run_marked`).

# What goes wrong

The `timer->sequence()` at the end of an `addTimer` on another thread
(`read_after_delete`): the loop may have run and deleted the timer by
then. And a cancel that overtakes the timer's `addTimerInLoop` does not
cancel it, so that the next one finds it in the queue.
-/
import Cobra.Proofs.TimerOrder
import Cobra.Proofs.TimerStale
import Cobra.TimerOwners

namespace Cobra

open Machine TimerQueue

namespace TimerLoop

variable {L L' : TimerLoop}

-- ============================================================== objects

theorem alive_iff {q : TimerQueue} {id : TimerId} :
    q.alive id = true
      ↔ ∃ t, q.heap id.timer = some t ∧ t.sequence = id.sequence := by
  unfold alive
  cases hq : q.heap id.timer with
  | none => simp
  | some t => simp

/-- An address in use is that of an object. -/
theorem live_of_holds (h : LoopInv L) {p : Nat} (hp : L.holds p = true) :
    ∃ t, L.queue.heap p = some t := by
  simp only [holds, Bool.or_eq_true, decide_eq_true_eq] at hp
  rcases hp with ((hp | hp) | hp) | hp
  · exact h.freshLive p hp
  · obtain ⟨e, he, rfl⟩ := List.mem_map.1 hp
    exact h.sets.live (h.sets.active_of_mem he)
  · obtain ⟨id, hid, rfl⟩ := List.mem_map.1 hp
    exact h.sets.live ⟨_, hid⟩
  · cases hf : L.frame with
    | none =>
        rw [hf] at hp
        cases hp
    | some f =>
        rw [hf, decide_eq_true_eq] at hp
        obtain ⟨e, he, rfl⟩ := List.mem_map.1 hp
        exact (h.batch f hf).live e he

/-- An object's address is in use. -/
theorem holds_of_live (h : LoopInv L) {p : Nat} {t : Timer}
    (ht : L.queue.heap p = some t) : L.holds p = true := by
  simp only [holds, Bool.or_eq_true, decide_eq_true_eq]
  rcases h.owned p t ht with ⟨s, hs⟩ | hp | ⟨f, hf, hp⟩
  · exact .inl (.inr (List.mem_map_of_mem (f := TimerId.timer) hs))
  · exact .inl (.inl (.inl hp))
  · rw [hf, decide_eq_true_eq]
    exact .inr hp

/-- The objects after an action: the one it created, and some of those
there were, each where it was. -/
theorem heap_moves_inv {a : TimerAct} {p : Nat} {t : Timer}
    (hinv : LoopInv L) (hm : Moves L a L') (ht : L'.queue.heap p = some t) :
    (L.queue.heap p = none ∧ ⟨p, t.sequence⟩ ∈ L.made a)
      ∨ ∃ t₀, L.queue.heap p = some t₀ ∧ t.sequence = t₀.sequence := by
  cases hm with
  | stay => exact .inr ⟨t, ht, rfl⟩
  | tick => exact .inr ⟨t, ht, rfl⟩
  | mark => exact .inr ⟨t, ht, rfl⟩
  | miss => exact .inr ⟨t, ht, rfl⟩
  | run => exact .inr ⟨t, ht, rfl⟩
  | new p' w r d hp hfree =>
      rcases heap_newTimer_inv ht with ⟨rfl, hs⟩ | ⟨-, ht⟩
      · refine .inl ⟨hfree, ?_⟩
        have hcan : L.queue.canAllocate p = true := by
          simp only [canAllocate, hfree, Option.isNone_none, Bool.and_true]
          exact decide_eq_true hp
        simp only [made]
        rw [if_pos hcan, hs]
        exact List.mem_singleton.2 rfl
      · exact .inr ⟨t, ht, rfl⟩
  | add p' t' hf ht' =>
      obtain ⟨-, -, hheap, -⟩ := added_frame L.queue L.clock p' t'
      refine .inr ⟨t, ?_, rfl⟩
      rw [← hheap]
      exact ht
  | drop id t' hid ht' => exact .inr ⟨t, (heap_dropped_inv ht).2, rfl⟩
  | begin hf expired q hq =>
      refine .inr ⟨t, ?_, rfl⟩
      rw [← show q.heap = L.queue.heap from hq.heap]
      exact ht
  | finish now expired q hf hr =>
      obtain ⟨-, -, hheap, -⟩ := rearmed_frame q L.clock
      rw [show (q.rearmed L.clock).heap = q.heap from hheap] at ht
      rcases hr.live_inv (hinv.batch _ hf).live ht with ⟨-, ht⟩
        | ⟨-, t₀, ht₀, -, hs⟩
      · exact .inr ⟨t, ht, rfl⟩
      · exact .inr ⟨t₀, ht₀, hs⟩

/-- An address with an object before and after has the same one. -/
theorem sequence_moves {a : TimerAct} {p : Nat} {t t' : Timer}
    (hinv : LoopInv L) (hm : Moves L a L') (ht : L.queue.heap p = some t)
    (ht' : L'.queue.heap p = some t') : t'.sequence = t.sequence := by
  rcases heap_moves_inv hinv hm ht' with ⟨hfree, -⟩ | ⟨t₀, ht₀, hs⟩
  · rw [ht] at hfree
    cases hfree
  · rw [ht] at ht₀
    cases ht₀
    exact hs

/-- What exists after an action existed before, or was created by it. -/
theorem alive_moves_inv {a : TimerAct} {id : TimerId} (hinv : LoopInv L)
    (hm : Moves L a L') (h : L'.queue.alive id = true) :
    id ∈ L.made a ∨ L.queue.alive id = true := by
  obtain ⟨t, ht, hs⟩ := alive_iff.1 h
  rcases heap_moves_inv hinv hm ht with ⟨-, hmade⟩ | ⟨t₀, ht₀, hs₀⟩
  · rw [hs] at hmade
    exact .inl hmade
  · exact .inr (alive_iff.2 ⟨t₀, ht₀, hs₀.symm.trans hs⟩)

/-- A new object has the next number. -/
theorem sequence_made {a : TimerAct} {id : TimerId} (h : id ∈ L.made a) :
    id.sequence = L.queue.numCreated + 1 := by
  unfold made at h
  split at h
  next p w r d =>
    split at h
    next =>
      cases List.mem_singleton.1 h
      rfl
    next => exact absurd h List.not_mem_nil
  next => exact absurd h List.not_mem_nil

theorem nodup_made (L : TimerLoop) (a : TimerAct) : (L.made a).Nodup := by
  unfold made
  split
  next =>
    split
    · exact List.nodup_singleton _
    · exact .nil
  next => exact .nil

/-- What is created exists. -/
theorem alive_made {a : TimerAct} {id : TimerId} (hok : L.step a = .ok L')
    (h : id ∈ L.made a) : L'.queue.alive id = true := by
  unfold made at h
  split at h
  next p w r d =>
    split at h
    next hcan =>
      cases List.mem_singleton.1 h
      simp only [step] at hok
      rw [if_pos hcan] at hok
      cases hok
      exact alive_iff.2 ⟨_, heap_newTimer_self .., rfl⟩
    next => exact absurd h List.not_mem_nil
  next => exact absurd h List.not_mem_nil

/-- What exists has a number that was given out. -/
theorem sequence_le_of_alive {id : TimerId} (hinv : LoopInv L)
    (h : L.queue.alive id = true) : id.sequence ≤ L.queue.numCreated := by
  obtain ⟨t, ht, hs⟩ := alive_iff.1 h
  rw [← hs]
  exact hinv.seq_le _ t ht

/-- A timer that is logged as inserted was logged before, or exists. -/
theorem inserted_moves_inv {a : TimerAct} {id : TimerId}
    (hm : Moves L a L') (h : .inserted id ∈ L'.obs) :
    .inserted id ∈ L.obs ∨ L.queue.alive id = true := by
  have hold : ∀ {o : TimerObs}, .inserted id ∈ L.obs ++ [o] →
      .inserted id ≠ o → .inserted id ∈ L.obs := by
    intro o hmem hne
    rcases List.mem_append.1 hmem with hmem | hmem
    · exact hmem
    · exact absurd (List.mem_singleton.1 hmem) hne
  cases hm with
  | stay => exact .inl h
  | tick => exact .inl h
  | begin => exact .inl h
  | finish => exact .inl h
  | new p w r d hp hfree => exact .inl (hold h nofun)
  | drop id' t hid ht => exact .inl (hold h nofun)
  | mark id' hid f hf => exact .inl (hold h nofun)
  | miss id' hid hf => exact .inl (hold h nofun)
  | run now expired e rest t hf ht => exact .inl (hold h nofun)
  | add p t hf ht =>
      rcases List.mem_append.1 h with h | h
      · exact .inl h
      · cases List.mem_singleton.1 h
        exact .inr (alive_iff.2 ⟨t, ht, rfl⟩)

end TimerLoop

namespace TimerOwners

open TimerLoop

variable {s s' : TimerOwners}

-- ============================================================ ownership

structure OwnerInv (s : TimerOwners) : Prop where
  inv : LoopInv s.loop
  log : LogInv s.loop
  pointers : ∀ id, id ∈ s.pointers ↔ s.loop.queue.alive id = true
  nodup : s.pointers.Nodup
  gone : ∀ id ∈ s.deleted, id.sequence ≤ s.loop.queue.numCreated
    ∧ s.loop.queue.alive id = false
  once : s.deleted.Nodup
  inserted : ∀ id, .inserted id ∈ s.loop.obs →
    s.loop.queue.alive id = true ∨ id ∈ s.deleted

theorem ownerInv_create (clock : Timestamp) : OwnerInv (create clock) where
  inv := loopInv_create clock
  log := logInv_create clock
  pointers := fun _ => iff_of_false List.not_mem_nil nofun
  nodup := .nil
  gone := fun _ h => absurd h List.not_mem_nil
  once := .nil
  inserted := fun _ h => absurd h List.not_mem_nil

/-- The timers and their pointers after an action of the queue that has
led to `L`. -/
def after (s : TimerOwners) (a : TimerAct) (L : TimerLoop) : TimerOwners :=
  { s with
    loop := L
    pointers := (s.loop.made a ++ s.pointers).filter fun id => L.holds id.timer
    deleted := s.deleted ++ s.pointers.filter fun id =>
      s.loop.queue.alive id && !L.queue.alive id }

theorem inLoop_eq {a : TimerAct} {L : TimerLoop}
    (hok : s.loop.step a = .ok L) : s.inLoop a = .ok (s.after a L) := by
  unfold inLoop
  rw [hok]
  rfl

theorem mem_pointers_after {a : TimerAct} {L : TimerLoop} (h : OwnerInv s)
    (hok : s.loop.step a = .ok L) (hm : Moves s.loop a L) (id : TimerId) :
    id ∈ (s.after a L).pointers ↔ L.queue.alive id = true := by
  have hinv' := loopInv_moves h.inv hm
  simp only [after, List.mem_filter, List.mem_append, h.pointers]
  constructor
  · rintro ⟨hmade | halive, hheld⟩
    · exact alive_made hok hmade
    · obtain ⟨t, ht, hs⟩ := alive_iff.1 halive
      obtain ⟨t', ht'⟩ := live_of_holds hinv' hheld
      refine alive_iff.2 ⟨t', ht', ?_⟩
      rw [sequence_moves h.inv hm ht ht', hs]
  · intro halive
    obtain ⟨t, ht, -⟩ := alive_iff.1 halive
    exact ⟨alive_moves_inv h.inv hm halive, holds_of_live hinv' ht⟩

theorem mem_deleted_after {a : TimerAct} {L : TimerLoop} (h : OwnerInv s)
    {id : TimerId} :
    id ∈ (s.after a L).deleted ↔ id ∈ s.deleted
      ∨ s.loop.queue.alive id = true ∧ L.queue.alive id = false := by
  simp only [after, List.mem_append, List.mem_filter, Bool.and_eq_true,
    Bool.not_eq_true', h.pointers]
  constructor
  · rintro (hd | ⟨-, hd⟩)
    · exact .inl hd
    · exact .inr hd
  · rintro (hd | hd)
    · exact .inl hd
    · exact .inr ⟨hd.1, hd⟩

theorem ownerInv_after {a : TimerAct} {L : TimerLoop} (h : OwnerInv s)
    (hok : s.loop.step a = .ok L) (hm : Moves s.loop a L) :
    OwnerInv (s.after a L) := by
  have hnew : ∀ id ∈ s.loop.made a, ¬ id.sequence ≤ s.loop.queue.numCreated := by
    intro id hid
    rw [sequence_made hid]
    omega
  -- the object of an identifier that was given out does not come back
  have hback : ∀ id, id.sequence ≤ s.loop.queue.numCreated →
      L.queue.alive id = true → s.loop.queue.alive id = true := by
    intro id hseq halive
    rcases alive_moves_inv h.inv hm halive with hmade | halive
    · exact absurd hseq (hnew id hmade)
    · exact halive
  constructor
  case inv => exact loopInv_moves h.inv hm
  case log => exact logInv_moves h.inv hm h.log
  case pointers => exact mem_pointers_after h hok hm
  case nodup =>
      refine List.Nodup.filter _ (List.nodup_append.2
        ⟨nodup_made s.loop a, h.nodup, fun id hid id' hid' he => ?_⟩)
      subst he
      exact hnew id hid (sequence_le_of_alive h.inv ((h.pointers id).1 hid'))
  case gone =>
      intro id hid
      have hn : s.loop.queue.numCreated ≤ L.queue.numCreated :=
        numCreated_moves hm
      rcases (mem_deleted_after h).1 hid with hd | ⟨halive, hdead⟩
      · obtain ⟨hseq, hdead⟩ := h.gone id hd
        refine ⟨hseq.trans hn, Bool.eq_false_iff.2 fun halive => ?_⟩
        rw [hback id hseq halive] at hdead
        cases hdead
      · exact ⟨(sequence_le_of_alive h.inv halive).trans hn, hdead⟩
  case once =>
      refine List.nodup_append.2 ⟨h.once, h.nodup.filter _,
        fun id hid id' hid' he => ?_⟩
      subst he
      rw [List.mem_filter, h.pointers, (h.gone id hid).2] at hid'
      cases hid'.1
  case inserted =>
      intro id hid
      have hwas : s.loop.queue.alive id = true ∨ id ∈ s.deleted := by
        rcases inserted_moves_inv hm hid with hid | halive
        · exact h.inserted id hid
        · exact .inl halive
      rw [mem_deleted_after h]
      rcases hwas with halive | hd
      · cases hdead : L.queue.alive id with
        | true => exact .inl hdead
        | false => exact .inr (.inr ⟨halive, rfl⟩)
      · exact .inr (.inl hd)

/-- An action of the queue succeeds and keeps the pointers in order. -/
theorem inLoop_moves (h : OwnerInv s) (a : TimerAct) :
    ∃ L, s.inLoop a = .ok (s.after a L) ∧ s.loop.step a = .ok L
      ∧ Moves s.loop a L ∧ OwnerInv (s.after a L) := by
  obtain ⟨L, hok, hm⟩ := step_moves h.inv a
  exact ⟨L, inLoop_eq hok, hok, hm, ownerInv_after h hok hm⟩

theorem ownerInv_set (h : OwnerInv s) (t : Timestamp) :
    OwnerInv { s with loop := { s.loop with clock := t } } where
  inv := h.inv.setClock t
  log := ⟨h.log.issued, h.log.inserted⟩
  pointers := h.pointers
  nodup := h.nodup
  gone := h.gone
  once := h.once
  inserted := h.inserted

theorem ownerInv_returning (h : OwnerInv s) (r : List TimerId) :
    OwnerInv { s with returning := r } where
  inv := h.inv
  log := h.log
  pointers := h.pointers
  nodup := h.nodup
  gone := h.gone
  once := h.once
  inserted := h.inserted

/-- Every read at the end of an `addTimer` on another thread comes before
the loop deletes the timer, and no cancel comes before its timer's
`addTimerInLoop`. -/
structure InTime (s : TimerOwners) (a : OwnerAct) : Prop where
  reads : ∀ id ∈ s.returning, a = .returnId id →
    s.loop.queue.alive id = true
  cancels : ∀ id, a = .act (.cancelInLoop id) → ¬ Fresh s.loop id

/-- `addTimer` on the loop thread: the timer is there when its number is
read. -/
theorem addTimer_ok (h : OwnerInv s) {p : Nat} (w : Timestamp) (r : Bool)
    (d : Int64) (hcan : s.loop.queue.canAllocate p = true) :
    ∃ L₁ L₂, s.step (.addTimer p w r d)
        = .ok ((s.after (.newTimer p w r d) L₁).after (.addTimerInLoop p) L₂)
      ∧ s.loop.step (.newTimer p w r d) = .ok L₁
      ∧ L₁.step (.addTimerInLoop p) = .ok L₂
      ∧ OwnerInv ((s.after (.newTimer p w r d) L₁).after
        (.addTimerInLoop p) L₂) := by
  obtain ⟨L₁, hin₁, hok₁, -, h₁⟩ := inLoop_moves h (.newTimer p w r d)
  obtain ⟨L₂, hin₂, hok₂, hm₂, h₂⟩ := inLoop_moves h₁ (.addTimerInLoop p)
  have hmade : (⟨p, s.loop.queue.numCreated + 1⟩ : TimerId)
      ∈ s.loop.made (.newTimer p w r d) := by
    simp only [made]
    rw [if_pos hcan]
    exact List.mem_singleton.2 rfl
  obtain ⟨t, ht, -⟩ := alive_iff.1 (alive_made hok₁ hmade)
  have ht₂ : L₂.queue.heap p = some t := by
    have hheap : L₂.queue.heap = L₁.queue.heap := by
      cases hm₂ with
      | stay => rfl
      | add _ t' hf ht' => exact (added_frame L₁.queue L₁.clock p t').2.2.1
    rw [hheap]
    exact ht
  refine ⟨L₁, L₂, ?_, hok₁, hok₂, h₂⟩
  simp only [step]
  rw [if_pos hcan, hin₁, ok_bind, hin₂, ok_bind]
  show (idOf L₂ p >>= fun _ => _) = _
  unfold idOf
  rw [deref_eq ht₂]
  rfl

/-- One action, with the object of the read it may make still there. -/
theorem step_inv (h : OwnerInv s) {a : OwnerAct}
    (hreads : ∀ id ∈ s.returning, a = .returnId id →
      s.loop.queue.alive id = true) :
    ∃ s', s.step a = .ok s' ∧ OwnerInv s' := by
  cases a with
  | set t => exact ⟨_, rfl, ownerInv_set h t⟩
  | act a =>
      obtain ⟨L, hin, -, -, h'⟩ := inLoop_moves h a
      refine ⟨_, ?_, ownerInv_returning h' (s.loop.made a ++ s.returning)⟩
      simp only [step, hin, ok_bind]
  | addTimer p w r d =>
      by_cases hcan : s.loop.queue.canAllocate p = true
      · obtain ⟨L₁, L₂, hok, -, -, h'⟩ := addTimer_ok h w r d hcan
        exact ⟨_, hok, h'⟩
      · refine ⟨s, ?_, h⟩
        simp only [step]
        rw [if_neg hcan]
  | returnId id =>
      by_cases hid : id ∈ s.returning
      · refine ⟨_, ?_, ownerInv_returning h (s.returning.erase id)⟩
        simp only [step]
        rw [if_pos hid, require_bind (hreads id hid rfl)]
      · refine ⟨s, ?_, h⟩
        simp only [step]
        rw [if_neg hid]

/-- Each object is deleted at most once, every pointer in use is to an
object that exists, and, with no `handleRead` in progress, a timer that
was inserted is in the queue or deleted. -/
structure OwnsTimers (s : TimerOwners) : Prop where
  once : s.deleted.Nodup
  inUse : ∀ id ∈ s.pointers, s.loop.queue.alive id = true ∧ id ∉ s.deleted
  all : ∀ p, s.loop.holds p = true → ∃ id ∈ s.pointers, id.timer = p
  quiescent : s.loop.frame = none → ∀ id, .inserted id ∈ s.loop.obs →
    (id ∈ s.loop.queue.activeTimers ↔ id ∉ s.deleted)

theorem OwnerInv.not_deleted (h : OwnerInv s) {id : TimerId}
    (halive : s.loop.queue.alive id = true) : id ∉ s.deleted := by
  intro hd
  rw [(h.gone id hd).2] at halive
  cases halive

theorem OwnerInv.ownsTimers (h : OwnerInv s) : OwnsTimers s := by
  refine ⟨h.once, fun id hid => ?_, fun p hp => ?_, fun hf id hins => ?_⟩
  · have halive := (h.pointers id).1 hid
    exact ⟨halive, h.not_deleted halive⟩
  · obtain ⟨t, ht⟩ := live_of_holds h.inv hp
    exact ⟨⟨p, t.sequence⟩, (h.pointers _).2 (alive_iff.2 ⟨t, ht, rfl⟩), rfl⟩
  · constructor
    · intro hact
      obtain ⟨t, ht, hs, -⟩ := h.inv.sets.active id hact
      exact h.not_deleted (alive_iff.2 ⟨t, ht, hs⟩)
    · intro hnot
      obtain ⟨t, ht, hs⟩ := alive_iff.1 ((h.inserted id hins).resolve_right hnot)
      -- it is neither fresh nor in a batch, so it is in the queue
      by_contra hid
      obtain ⟨f, hf', -⟩ := in_batch_of_idle h.inv (h.log.inserted id hins).2
        hid ht hs
      rw [hf] at hf'
      cases hf'

/-- An action that succeeds has found the object it reads. -/
theorem ownerInv_of_ok (h : OwnerInv s) {a : OwnerAct}
    (hok : s.step a = .ok s') : OwnerInv s' := by
  have hreads : ∀ id ∈ s.returning, a = .returnId id →
      s.loop.queue.alive id = true := by
    intro id hid ha
    subst ha
    simp only [step] at hok
    rw [if_pos hid] at hok
    obtain ⟨_, halive, -⟩ := bind_ok_inv hok
    exact require_inv halive
  obtain ⟨s'', hok', h'⟩ := step_inv h hreads
  rw [hok] at hok'
  cases hok'
  exact h'

theorem ownerInv_of_run {clock : Timestamp} {acts : List OwnerAct}
    (hrun : run step (create clock) acts = .ok s) : OwnerInv s :=
  run_inv_all (fun _ _ _ hs hok => ownerInv_of_ok hs hok)
    (ownerInv_create clock) hrun

-- ========================================================= late cancels

theorem inLoop_inv {a : TimerAct} (hok : s.inLoop a = .ok s') :
    ∃ L, s.loop.step a = .ok L ∧ s' = s.after a L := by
  unfold inLoop at hok
  obtain ⟨L, hL, h⟩ := bind_ok_inv hok
  cases h
  exact ⟨L, hL, rfl⟩

/-- What an action does to the loop: it sets the clock, it is one of the
queue's, it is `addTimer` on the loop thread, or it does nothing. -/
inductive LoopSteps (L : TimerLoop) : TimerLoop → Prop
  | stay : LoopSteps L L
  | set (t : Timestamp) : LoopSteps L { L with clock := t }
  | one (a : TimerAct) (L' : TimerLoop) (hok : L.step a = .ok L') :
      LoopSteps L L'
  | two (a b : TimerAct) (L₁ L' : TimerLoop) (hok₁ : L.step a = .ok L₁)
      (hok : L₁.step b = .ok L') : LoopSteps L L'

theorem loopSteps_of_ok {a : OwnerAct} (hok : s.step a = .ok s') :
    LoopSteps s.loop s'.loop := by
  cases a with
  | set t =>
      cases hok
      exact .set t
  | act a =>
      simp only [step] at hok
      obtain ⟨s₁, hin, h⟩ := bind_ok_inv hok
      obtain ⟨L, hL, rfl⟩ := inLoop_inv hin
      cases h
      exact .one a L hL
  | addTimer p w r d =>
      simp only [step] at hok
      split at hok
      next =>
        obtain ⟨s₁, hin₁, h⟩ := bind_ok_inv hok
        obtain ⟨s₂, hin₂, h⟩ := bind_ok_inv h
        obtain ⟨_, -, h⟩ := bind_ok_inv h
        cases h
        obtain ⟨L₁, hL₁, rfl⟩ := inLoop_inv hin₁
        obtain ⟨L₂, hL₂, rfl⟩ := inLoop_inv hin₂
        exact .two _ _ L₁ L₂ hL₁ hL₂
      next =>
        cases hok
        exact .stay
  | returnId id =>
      simp only [step] at hok
      split at hok
      next =>
        obtain ⟨_, -, h⟩ := bind_ok_inv hok
        cases h
        exact .stay
      next =>
        cases hok
        exact .stay

theorem spent_step {L L' : TimerLoop} {a : TimerAct} {id : TimerId}
    (hinv : LoopInv L) (hspent : Spent L id) (hok : L.step a = .ok L') :
    LoopInv L' ∧ Spent L' id := by
  have hm := moves_of_ok hinv hok
  exact ⟨loopInv_moves hinv hm, spent_moves hinv hm hspent⟩

theorem spent_loopSteps {L L' : TimerLoop} {id : TimerId}
    (hinv : LoopInv L) (hspent : Spent L id) (hl : LoopSteps L L') :
    Spent L' id := by
  cases hl with
  | stay => exact hspent
  | set t => exact hspent
  | one a L' hok => exact (spent_step hinv hspent hok).2
  | two a b L₁ L' hok₁ hok =>
      obtain ⟨hinv₁, hspent₁⟩ := spent_step hinv hspent hok₁
      exact (spent_step hinv₁ hspent₁ hok).2

theorem spent_run {as : List OwnerAct} {id : TimerId} (h : OwnerInv s)
    (hspent : Spent s.loop id) (hrun : run step s as = .ok s') :
    OwnerInv s' ∧ Spent s'.loop id :=
  run_inv_all (I := fun s => OwnerInv s ∧ Spent s.loop id)
    (fun _ _ _ hs hok => ⟨ownerInv_of_ok hs.1 hok,
      spent_loopSteps hs.1.inv hs.2 (loopSteps_of_ok hok)⟩)
    ⟨h, hspent⟩ hrun

/-- The timers with other marks and another log. -/
def marked (s : TimerOwners) (c : OrdSet TimerId) (obs : List TimerObs) :
    TimerOwners :=
  { s with loop := s.loop.marked c obs }

section Marked

variable {id : TimerId} {c : OrdSet TimerId} {o : List TimerObs}

/-- The pointers and the log of deletions do not depend on the marks. -/
theorem inLoop_marked {a : TimerAct} (hinv : LoopInv s.loop)
    (hspent : Spent s.loop id) (hc : SameMarks s.loop id c)
    (hok : s.inLoop a = .ok s') :
    ∃ c' new, (s.marked c o).inLoop a = .ok (s'.marked c' (o ++ new))
      ∧ s'.loop.obs = s.loop.obs ++ new ∧ SameMarks s'.loop id c' := by
  obtain ⟨L, hL, rfl⟩ := inLoop_inv hok
  obtain ⟨c', new, hL', hobs, hc'⟩ :=
    step_marked (o := o) hinv hspent hc hL
  refine ⟨c', new, ?_, hobs, hc'⟩
  rw [inLoop_eq (s := s.marked c o) hL']
  rfl

/-- `addTimer` on the loop thread: two actions of the queue and a read. -/
theorem addTimer_marked {p : Nat} {w : Timestamp} {r : Bool} {d : Int64}
    (hinv : LoopInv s.loop) (hspent : Spent s.loop id)
    (hc : SameMarks s.loop id c)
    (hcan : s.loop.queue.canAllocate p = true)
    (hok : s.step (.addTimer p w r d) = .ok s') :
    ∃ c' new, (s.marked c o).step (.addTimer p w r d)
        = .ok (s'.marked c' (o ++ new))
      ∧ s'.loop.obs = s.loop.obs ++ new ∧ SameMarks s'.loop id c' := by
  simp only [step] at hok
  rw [if_pos hcan] at hok
  obtain ⟨s₁, hin₁, hs⟩ := bind_ok_inv hok
  obtain ⟨s₂, hin₂, hs⟩ := bind_ok_inv hs
  obtain ⟨id', hid, hs⟩ := bind_ok_inv hs
  cases hs
  obtain ⟨L₁, hL₁, he₁⟩ := inLoop_inv hin₁
  obtain ⟨hinv₁, hspent₁⟩ := spent_step hinv hspent hL₁
  have hloop : s₁.loop = L₁ := by rw [he₁]; rfl
  rw [← hloop] at hinv₁ hspent₁
  obtain ⟨c₁, new₁, hin₁', hobs₁, hc₁⟩ :=
    inLoop_marked (o := o) hinv hspent hc hin₁
  obtain ⟨c₂, new₂, hin₂', hobs₂, hc₂⟩ :=
    inLoop_marked (o := o ++ new₁) hinv₁ hspent₁ hc₁ hin₂
  refine ⟨c₂, new₁ ++ new₂, ?_, ?_, hc₂⟩
  · simp only [step]
    rw [if_pos (show (s.marked c o).loop.queue.canAllocate p = true
      from hcan), hin₁', ok_bind, hin₂', ok_bind, List.append_assoc,
      show (s'.marked c₂ (o ++ (new₁ ++ new₂))).loop.idOf p = .ok id'
        from hid]
    rfl
  · rw [hobs₂, hobs₁, List.append_assoc]

theorem ownerStep_marked {a : OwnerAct} (h : OwnerInv s)
    (hspent : Spent s.loop id) (hc : SameMarks s.loop id c)
    (hok : s.step a = .ok s') :
    ∃ c' new, (s.marked c o).step a = .ok (s'.marked c' (o ++ new))
      ∧ s'.loop.obs = s.loop.obs ++ new ∧ SameMarks s'.loop id c' := by
  have hstay : ∀ {s' : TimerOwners}, s'.loop.obs = s.loop.obs →
      s'.loop.queue.cancelingTimers = s.loop.queue.cancelingTimers →
      (s.marked c o).step a = .ok (s'.marked c o) →
      ∃ c' new, (s.marked c o).step a = .ok (s'.marked c' (o ++ new))
        ∧ s'.loop.obs = s.loop.obs ++ new ∧ SameMarks s'.loop id c' := by
    intro s' hobs hcanc hstep
    refine ⟨c, [], ?_, ?_, hc.congr hcanc⟩
    · rw [List.append_nil]
      exact hstep
    · rw [List.append_nil]
      exact hobs
  cases a with
  | set t =>
      cases hok
      exact hstay rfl rfl rfl
  | act a =>
      simp only [step] at hok
      obtain ⟨s₁, hin, hs⟩ := bind_ok_inv hok
      cases hs
      obtain ⟨c', new, hin', hobs, hc'⟩ :=
        inLoop_marked (o := o) h.inv hspent hc hin
      refine ⟨c', new, ?_, hobs, hc'⟩
      simp only [step, hin', ok_bind]
      rfl
  | addTimer p w r d =>
      by_cases hcan : s.loop.queue.canAllocate p = true
      · exact addTimer_marked h.inv hspent hc hcan hok
      · simp only [step] at hok
        rw [if_neg hcan] at hok
        cases hok
        refine hstay rfl rfl ?_
        simp only [step]
        exact if_neg hcan
  | returnId id' =>
      simp only [step] at hok
      split at hok
      next hid =>
        obtain ⟨_, halive, hs⟩ := bind_ok_inv hok
        cases hs
        refine hstay rfl rfl ?_
        simp only [step]
        rw [if_pos (show id' ∈ (s.marked c o).returning from hid),
          require_bind (show (s.marked c o).loop.queue.alive id' = true
            from require_inv halive)]
        rfl
      next hid =>
        cases hok
        refine hstay rfl rfl ?_
        simp only [step]
        exact if_neg hid

/-- A run goes the same way with the mark of a spent timer as without. -/
theorem run_marked {u : TimerOwners} : ∀ {more : List OwnerAct}
    {s : TimerOwners} {c : OrdSet TimerId} {o : List TimerObs},
    OwnerInv s → Spent s.loop id → SameMarks s.loop id c →
    run step s more = .ok u →
    ∃ c' new, run step (s.marked c o) more
        = .ok (u.marked c' (o ++ new)) ∧ u.loop.obs = s.loop.obs ++ new := by
  intro more
  induction more with
  | nil =>
      intro s c o _ _ _ hrun
      cases hrun
      exact ⟨c, [], by rw [List.append_nil]; rfl, (List.append_nil _).symm⟩
  | cons a more ih =>
      intro s c o h hspent hc hrun
      obtain ⟨s₁, hok, hrun'⟩ := run_cons_inv hrun
      obtain ⟨c₁, new₁, hok', hobs₁, hc₁⟩ :=
        ownerStep_marked (o := o) h hspent hc hok
      obtain ⟨c', new, hrun'', hobs⟩ := ih (o := o ++ new₁)
        (ownerInv_of_ok h hok)
        (spent_loopSteps h.inv hspent (loopSteps_of_ok hok)) hc₁ hrun'
      refine ⟨c', new₁ ++ new, ?_, ?_⟩
      · rw [run_cons_ok more hok', hrun'', List.append_assoc]
      · rw [hobs, hobs₁, List.append_assoc]

end Marked

/-- A cancel with this identifier changes nothing but the log and its own
mark. -/
def MarksOnly (s : TimerOwners) (id : TimerId) : Prop :=
  ∃ c obs, s.step (.act (.cancelInLoop id)) = .ok (s.marked c obs)
    ∧ ∀ id', id' ≠ id → (id' ∈ c ↔ id' ∈ s.loop.queue.cancelingTimers)

/-- A cancel with this identifier changes neither set, and whatever comes
after it comes the same without it: every state from then on is the same
but for the marks and for the cancel in the log. -/
def CancelsNothing (s : TimerOwners) (id : TimerId) : Prop :=
  ∃ s', s.step (.act (.cancelInLoop id)) = .ok s'
    ∧ s'.loop.queue.timers = s.loop.queue.timers
    ∧ s'.loop.queue.activeTimers = s.loop.queue.activeTimers
    ∧ ∀ more u, run step s more = .ok u →
      ∃ c new, u.loop.obs = s.loop.obs ++ new ∧ run step s' more
        = .ok (u.marked c (s.loop.obs ++ .cancelled id :: new))

/-- The cancel of a timer that is not in the queue leaves a mark, or
nothing at all. -/
theorem cancel_inactive {id : TimerId} (h : OwnerInv s)
    (hid : id ∉ s.loop.queue.activeTimers) :
    ∃ c, s.step (.act (.cancelInLoop id))
        = .ok (s.marked c (s.loop.obs ++ [.cancelled id]))
      ∧ SameMarks s.loop id c := by
  have hstep : ∃ c, s.loop.step (.cancelInLoop id)
        = .ok (s.loop.marked c (s.loop.obs ++ [.cancelled id]))
      ∧ SameMarks s.loop id c := by
    have hcancel := cancelInLoop_inactive h.inv.sets hid
    by_cases hcall : s.loop.queue.callingExpiredTimers = true
    · rw [if_pos hcall] at hcancel
      refine ⟨s.loop.queue.cancelingTimers.insert id, ?_, fun id' hne => ?_,
        fun hmem => OrdSet.mem_insert.2 (.inr hmem)⟩
      · simp only [TimerLoop.step, hcancel, ok_bind]
        rfl
      · rw [OrdSet.mem_insert]
        exact ⟨fun hor => hor.resolve_left hne, .inr⟩
    · rw [if_neg hcall] at hcancel
      refine ⟨s.loop.queue.cancelingTimers, ?_, fun _ _ => Iff.rfl,
        fun hmem => hmem⟩
      simp only [TimerLoop.step, hcancel, ok_bind]
      rfl
  obtain ⟨c, hok, hc⟩ := hstep
  refine ⟨c, ?_, hc⟩
  -- every pointer in use stays in use, and no object goes
  have hpointers : s.pointers.filter (fun id' => (s.loop.marked c
      (s.loop.obs ++ [.cancelled id])).holds id'.timer) = s.pointers := by
    refine List.filter_eq_self.2 fun id' hid' => ?_
    obtain ⟨t, ht, -⟩ := alive_iff.1 ((h.pointers id').1 hid')
    exact holds_of_live h.inv ht
  have hdeleted : s.pointers.filter (fun id' => s.loop.queue.alive id'
      && !(s.loop.marked c (s.loop.obs ++ [.cancelled id])).queue.alive id')
      = [] := by
    refine List.filter_eq_nil_iff.2 fun id' _ => ?_
    rw [show (s.loop.marked c (s.loop.obs ++ [.cancelled id])).queue.alive id'
      = s.loop.queue.alive id' from rfl, Bool.and_not_self]
    exact Bool.false_ne_true
  simp only [step, inLoop_eq hok, ok_bind, after, made, List.nil_append,
    hpointers, hdeleted, List.append_nil]
  rfl

theorem cancelsNothing_of_spent {id : TimerId} (h : OwnerInv s)
    (hspent : Spent s.loop id) : CancelsNothing s id := by
  obtain ⟨c, hok, hc⟩ := cancel_inactive h (hspent.not_active h.inv)
  refine ⟨_, hok, rfl, rfl, fun more u hrun => ?_⟩
  obtain ⟨c', new, hrun', hobs⟩ := run_marked
    (o := s.loop.obs ++ [.cancelled id]) h hspent hc hrun
  refine ⟨c', new, hobs, ?_⟩
  rw [List.append_assoc] at hrun'
  exact hrun'

-- ============================================================ every run

/-- The run has started the callback of this timer, which does not
repeat. -/
def AlreadyFired (clock : Timestamp) (acts : List OwnerAct) (id : TimerId) :
    Prop :=
  ∃ before after s now t, acts = before ++ .act .runNext :: after
    ∧ run step (create clock) before = .ok s ∧ Fires s.loop now id t
    ∧ t.repeat_ = false

/-- The run has executed a cancel with this identifier, which an
`addTimer` had returned. -/
def AlreadyCancelled (clock : Timestamp) (acts : List OwnerAct)
    (id : TimerId) : Prop :=
  ∃ before after s, acts = before ++ .act (.cancelInLoop id) :: after
    ∧ run step (create clock) before = .ok s ∧ .issued id ∈ s.loop.obs

/-- No action of the run finds a `Timer` object missing, its timers have
their owners, a cancel of a timer that is not in the queue marks no other
timer, and a late one touches nothing. -/
def KeepsOwnership (clock : Timestamp) (acts : List OwnerAct) : Prop :=
  ∃ s, run step (create clock) acts = .ok s ∧ OwnsTimers s
    ∧ (∀ id, id ∉ s.loop.queue.activeTimers → MarksOnly s id)
    ∧ ∀ id, AlreadyFired clock acts id ∨ AlreadyCancelled clock acts id →
      CancelsNothing s id

theorem spent_of_fired {clock : Timestamp} {acts : List OwnerAct}
    {id : TimerId} (hrun : run step (create clock) acts = .ok s)
    (h : AlreadyFired clock acts id) : Spent s.loop id := by
  obtain ⟨before, after, s₀, now, t, rfl, hrun₀, hfires, hrep⟩ := h
  have h₀ := ownerInv_of_run hrun₀
  obtain ⟨expired, e, rest, hf, ht, rfl⟩ := hfires
  have he : e ∈ expired := (h₀.inv.batch _ hf).mem_next rfl
  rw [run_append _ hrun₀] at hrun
  exact (spent_run h₀ (spent_of_batch h₀.inv hf he ht hrep) hrun).2

theorem spent_of_cancelled {clock : Timestamp} {acts : List OwnerAct}
    {id : TimerId} (hacts : Along step InTime (create clock) acts)
    (hrun : run step (create clock) acts = .ok s)
    (h : AlreadyCancelled clock acts id) : Spent s.loop id := by
  obtain ⟨before, after, s₀, rfl, hrun₀, hissued⟩ := h
  have h₀ := ownerInv_of_run hrun₀
  have hfresh := (Along.of_run after hacts hrun₀).cancels id rfl
  rw [run_append _ hrun₀] at hrun
  obtain ⟨s₁, hok, hrun₁⟩ := run_cons_inv hrun
  have h₁ := ownerInv_of_ok h₀ hok
  simp only [step] at hok
  obtain ⟨s₂, hin, hs⟩ := bind_ok_inv hok
  cases hs
  obtain ⟨L, hL, rfl⟩ := inLoop_inv hin
  have hspent := spent_of_cancel h₀.inv (moves_of_ok h₀.inv hL)
    (h₀.log.issued id hissued) hfresh
  exact (spent_run h₁ hspent hrun₁).2

/-- As long as every `addTimer` has read its timer's number before the
loop deletes the timer, and no cancel overtakes its timer's insertion,
timers are deleted once and not used afterwards, and late cancels touch
nothing. -/
theorem keepsOwnership_of_inTime (clock : Timestamp) (acts : List OwnerAct)
    (hacts : Along step InTime (create clock) acts) :
    KeepsOwnership clock acts := by
  obtain ⟨s, hrun, h⟩ := run_safe
    (fun _ _ hs hC => step_inv hs hC.reads) (ownerInv_create clock) hacts
  refine ⟨s, hrun, h.ownsTimers, fun id hid => ?_, fun id hid => ?_⟩
  · obtain ⟨c, hok, hc⟩ := cancel_inactive h hid
    exact ⟨c, _, hok, hc.other⟩
  · rcases hid with hfired | hcancelled
    · exact cancelsNothing_of_spent h (spent_of_fired hrun hfired)
    · exact cancelsNothing_of_spent h
        (spent_of_cancelled hacts hrun hcancelled)

/-- Another thread's one-shot timer fires and is deleted; the loop thread
adds a repeating one at the same address, and someone cancels the first
one, late. -/
def reusesAddress : List OwnerAct :=
  [.act (.newTimer 100 ⟨3⟩ false 0), .act (.addTimerInLoop 100),
    .returnId ⟨100, 1⟩, .set ⟨10⟩, .act .beginRead, .act .runNext,
    .act .endRead, .addTimer 100 ⟨20⟩ true 10,
    .act (.cancelInLoop ⟨100, 1⟩)]

theorem keepsOwnership_reused :
    Along step InTime (create ⟨5⟩) reusesAddress
      ∧ KeepsOwnership ⟨5⟩ reusesAddress := by
  have hacts : Along step InTime (create ⟨5⟩) reusesAddress := by
    refine along_step ⟨nofun, nofun⟩ rfl (along_step ⟨nofun, nofun⟩ rfl
      (along_step ⟨fun id hid _ => ?_, nofun⟩ rfl
        (along_step ⟨nofun, nofun⟩ rfl (along_step ⟨nofun, nofun⟩ rfl
          (along_step ⟨nofun, nofun⟩ rfl (along_step ⟨nofun, nofun⟩ rfl
            (along_step ⟨nofun, nofun⟩ rfl
              (along_step ⟨nofun, fun id hid => ?_⟩ rfl (along_nil _)))))))))
    · cases List.mem_singleton.1 hid
      rfl
    · intro hfresh
      exact absurd hfresh.1 List.not_mem_nil
  exact ⟨hacts, keepsOwnership_of_inTime ⟨5⟩ reusesAddress hacts⟩

/-- Thread 1 is in `addTimer`, past `runInLoop`; the loop inserts the
timer, runs its callback and deletes it; then thread 1 reads
`timer->sequence()`. -/
def readsLate : List OwnerAct :=
  [.act (.newTimer 100 ⟨7⟩ false 0), .act (.addTimerInLoop 100), .set ⟨10⟩,
    .act .beginRead, .act .runNext, .act .endRead, .returnId ⟨100, 1⟩]

theorem read_after_delete :
    run step (create ⟨5⟩) readsLate = .error .deletedTimer
      ∧ ¬ KeepsOwnership ⟨5⟩ readsLate := by
  have hrun : run step (create ⟨5⟩) readsLate = .error .deletedTimer := rfl
  refine ⟨hrun, fun h => ?_⟩
  obtain ⟨s, hok, -⟩ := h
  rw [hrun] at hok
  cases hok

end TimerOwners

end Cobra
