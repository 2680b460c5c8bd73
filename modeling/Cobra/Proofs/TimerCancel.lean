/-
What a cancel achieves: from which states `cancelInLoop` keeps a timer's
callback from ever being started again, on the loop thread alone and
with `addTimer` and `cancel` called from any thread.

# Doomed timers

A timer is `Doomed` when its callback cannot be started any more: the
object is gone, or it is in the batch in progress, already run, and
noted in `cancelingTimers_`, so that `reset` will delete it. No step
undoes that (`doomed_moves`), and the callback that `runNext` starts is
never a doomed timer's (`not_doomed_run`). `InBatch` is the general form:
a timer that is gone or in the batch, with a property that lasts until
`reset` deletes it.

# What a cancel can miss

`doomed_of_cancel` says that a cancel dooms its timer, except in two
states. In the first the timer has expired and waits in the batch for
its turn (`AwaitsRun`): the cancel is noted, but `handleRead` consults
`cancelingTimers_` only after it has run the whole batch. In the second
the timer's `addTimerInLoop` is still to come (`Fresh`): there is nothing
to erase yet, and the insertion that follows does not know about the
cancel. Both happen: `cancel_in_batch_runs` and `cancel_overtakes_add`.
-/
import Cobra.Proofs.TimerQueue
import Cobra.TimerThreads

namespace Cobra.TimerLoop

open Machine TimerQueue

variable {L L' : TimerLoop}

-- ====================================================== the three places

/-- The timer has expired and waits in the batch for its callback to be
started. -/
def AwaitsRun (L : TimerLoop) (id : TimerId) : Prop :=
  ∃ f, L.frame = some f ∧ ∃ e ∈ f.rest, e.timer = id.timer
    ∧ ∃ t, L.queue.heap id.timer = some t ∧ t.sequence = id.sequence

/-- The timer's `addTimerInLoop` is still to come. -/
def Fresh (L : TimerLoop) (id : TimerId) : Prop :=
  id.timer ∈ L.fresh
    ∧ ∃ t, L.queue.heap id.timer = some t ∧ t.sequence = id.sequence

/-- The timer's callback cannot be started any more. -/
def Doomed (L : TimerLoop) (id : TimerId) : Prop :=
  id.sequence ≤ L.queue.numCreated
    ∧ ∀ t, L.queue.heap id.timer = some t → t.sequence = id.sequence →
      ∃ f, L.frame = some f ∧ id.timer ∈ f.expired.map Entry.timer
        ∧ (∀ e ∈ f.rest, e.timer ≠ id.timer)
        ∧ id ∈ L.queue.cancelingTimers

/-- The timer is gone, or in the batch in progress and such that `P` holds
of the batch, the timer and the marks. -/
def InBatch (P : HandleRead → Timer → OrdSet TimerId → Prop) (L : TimerLoop)
    (id : TimerId) : Prop :=
  id.sequence ≤ L.queue.numCreated
    ∧ ∀ t, L.queue.heap id.timer = some t → t.sequence = id.sequence →
      ∃ f, L.frame = some f ∧ id.timer ∈ f.expired.map Entry.timer
        ∧ P f t L.queue.cancelingTimers

/-- What lasts until the end of the batch, and has `reset` delete the
timer there. -/
structure Lasting (id : TimerId)
    (P : HandleRead → Timer → OrdSet TimerId → Prop) : Prop where
  mark : ∀ {f t c}, P f t c → ∀ id', P f t (c.insert id')
  run : ∀ {now expired e rest t c}, P ⟨now, expired, e :: rest⟩ t c →
    P ⟨now, expired, rest⟩ t c
  deleted : ∀ {f t c}, P f t c → t.repeat_ = false ∨ id ∈ c

section InBatch

variable {P : HandleRead → Timer → OrdSet TimerId → Prop} {id : TimerId}

/-- It survives a step that neither revives the object nor touches the
batch and the marks. -/
theorem InBatch.congr (h : InBatch P L id)
    (hn : L.queue.numCreated ≤ L'.queue.numCreated)
    (hh : ∀ t, L'.queue.heap id.timer = some t → t.sequence = id.sequence →
      L.queue.heap id.timer = some t)
    (hf : L'.frame = L.frame)
    (hc : L'.queue.cancelingTimers = L.queue.cancelingTimers) :
    InBatch P L' id := by
  refine ⟨h.1.trans hn, fun t ht hs => ?_⟩
  rw [hf, hc]
  exact h.2 t (hh t ht hs) hs

/-- The timer stays in the batch until it is gone, and it does not come
back. -/
theorem inBatch_moves {a : TimerAct} (hP : Lasting id P) (hinv : LoopInv L)
    (hm : Moves L a L') (h : InBatch P L id) : InBatch P L' id := by
  cases hm with
  | stay => exact h
  | tick t => exact h.congr (Nat.le_refl _) (fun _ ht _ => ht) rfl rfl
  | new p w r d hp hfree =>
      refine h.congr (Nat.le_succ _) (fun t ht hs => ?_) rfl rfl
      rcases heap_newTimer_inv ht with ⟨-, hs'⟩ | ⟨-, ht⟩
      · -- the new object has a number no identifier has had
        have := h.1
        omega
      · exact ht
  | add p t hf ht =>
      obtain ⟨-, -, hheap, hnum, hcanc, -⟩ := added_frame L.queue L.clock p t
      refine h.congr hnum.ge (fun t' ht' _ => ?_) rfl hcanc
      rw [← hheap]
      exact ht'
  | drop id' t hid ht =>
      exact h.congr (Nat.le_refl _) (fun _ ht' _ => (heap_dropped_inv ht').2)
        rfl rfl
  | mark id' =>
      refine ⟨h.1, fun t ht hs => ?_⟩
      obtain ⟨f, hfr, hin, hx⟩ := h.2 t ht hs
      exact ⟨f, hfr, hin, hP.mark hx id'⟩
  | miss id' => exact h.congr (Nat.le_refl _) (fun _ ht _ => ht) rfl rfl
  | begin hf expired q hq =>
      refine ⟨h.1.trans hq.numCreated.ge, fun t ht hs => ?_⟩
      have ht' : L.queue.heap id.timer = some t := by
        rw [← show q.heap = L.queue.heap from hq.heap]
        exact ht
      obtain ⟨f, hfr, -⟩ := h.2 t ht' hs
      rw [hf] at hfr
      cases hfr
  | run now expired e rest t hf ht =>
      refine ⟨h.1, fun t' ht' hs => ?_⟩
      obtain ⟨f, hfr, hin, hx⟩ := h.2 t' ht' hs
      rw [hf] at hfr
      cases hfr
      exact ⟨_, rfl, hin, hP.run hx⟩
  | finish now expired q hf hr =>
      obtain ⟨-, -, hheap, hnum, -, -⟩ := rearmed_frame q L.clock
      refine ⟨h.1.trans (hnum.trans hr.numCreated).ge, fun t ht hs => ?_⟩
      -- after `reset` the timer is not there: it was deleted or long gone
      exfalso
      rw [show (q.rearmed L.clock).heap = q.heap from hheap] at ht
      rcases hr.live_inv (hinv.batch _ hf).live ht with ⟨hp, ht⟩
        | ⟨-, t₀, ht₀, hk, hs₀⟩
      · obtain ⟨f, hfr, hin, -⟩ := h.2 t ht hs
        rw [hf] at hfr
        cases hfr
        exact hp hin
      · obtain ⟨f, -, -, hx⟩ := h.2 t₀ ht₀ (hs₀.symm.trans hs)
        rcases hP.deleted hx with hrep | hmark
        · rw [hk.1] at hrep
          cases hrep
        · apply hk.2
          rw [← hs₀, hs]
          exact hmark

/-- A live timer that is neither in the queue nor still to be inserted is
in the batch. -/
theorem in_batch_of_idle {t : Timer} (hinv : LoopInv L)
    (hfresh : ¬ Fresh L id) (hid : id ∉ L.queue.activeTimers)
    (ht : L.queue.heap id.timer = some t) (hs : t.sequence = id.sequence) :
    ∃ f, L.frame = some f ∧ id.timer ∈ f.expired.map Entry.timer := by
  rcases hinv.owned _ t ht with ha | hf | hb
  · have hmem := (hinv.sets.active_iff ht).1 ha
    rw [hs] at hmem
    exact absurd hmem hid
  · exact absurd ⟨hf, t, ht, hs⟩ hfresh
  · exact hb

/-- A cancel of an inserted timer: the timer is gone, or it stays in the
batch with its mark. -/
theorem inBatch_of_cancel (hinv : LoopInv L)
    (hm : Moves L (.cancelInLoop id) L')
    (hseq : id.sequence ≤ L.queue.numCreated) (hfresh : ¬ Fresh L id)
    (hP : ∀ f t, L.frame = some f → L.queue.heap id.timer = some t →
      t.sequence = id.sequence → P f t (L.queue.cancelingTimers.insert id)) :
    InBatch P L' id := by
  cases hm with
  | stay _ ha => exact absurd rfl (ha id)
  | drop _ t hid ht =>
      refine ⟨hseq, fun t' ht' _ => ?_⟩
      exact absurd rfl (heap_dropped_inv ht').1
  | mark _ hid f hf =>
      refine ⟨hseq, fun t ht hs => ?_⟩
      obtain ⟨f', hf', hin⟩ := in_batch_of_idle hinv hfresh hid ht hs
      exact ⟨f', hf', hin, hP f' t hf' ht hs⟩
  | miss _ hid hf =>
      refine ⟨hseq, fun t ht hs => ?_⟩
      obtain ⟨f', hf', -⟩ := in_batch_of_idle hinv hfresh hid ht hs
      rw [hf] at hf'
      cases hf'

end InBatch

/-- Doom is for good. -/
theorem doomed_moves {a : TimerAct} {id : TimerId} (hinv : LoopInv L)
    (hm : Moves L a L') (h : Doomed L id) : Doomed L' id := by
  have hlasting : Lasting id fun f _ c =>
      (∀ e ∈ f.rest, e.timer ≠ id.timer) ∧ id ∈ c := by
    refine ⟨fun hx id' => ⟨hx.1, OrdSet.mem_insert.2 (.inr hx.2)⟩,
      fun hx => ⟨fun e he => hx.1 e (List.mem_cons_of_mem _ he), hx.2⟩,
      fun hx => .inr hx.2⟩
  exact inBatch_moves hlasting hinv hm h

/-- The callback that is started next is not a doomed timer's. -/
theorem not_doomed_run {now : Timestamp} {expired rest : List Entry}
    {e : Entry} {t : Timer} (hf : L.frame = some ⟨now, expired, e :: rest⟩)
    (ht : L.queue.heap e.timer = some t) : ¬ Doomed L ⟨e.timer, t.sequence⟩ := by
  intro h
  obtain ⟨f, hfr, -, hrest, -⟩ := h.2 t ht rfl
  rw [hf] at hfr
  cases hfr
  exact hrest e (List.mem_cons_self ..) rfl

/-- A cancel dooms its timer, unless the timer's insertion is still to
come or its callback is next in line. -/
theorem doomed_of_cancel {id : TimerId} (hinv : LoopInv L)
    (hm : Moves L (.cancelInLoop id) L')
    (hseq : id.sequence ≤ L.queue.numCreated) (hfresh : ¬ Fresh L id)
    (hrun : ¬ AwaitsRun L id) : Doomed L' id := by
  refine inBatch_of_cancel
    (P := fun f _ c => (∀ e ∈ f.rest, e.timer ≠ id.timer) ∧ id ∈ c)
    hinv hm hseq hfresh fun f t hf ht hs => ⟨?_, ?_⟩
  · intro e he hp
    exact hrun ⟨f, hf, e, he, hp, t, ht, hs⟩
  · exact OrdSet.mem_insert.2 (.inl rfl)

-- ============================================================== the log

/-- Every cancel that meets `E` when it returns is effective: the
timer's callback is not started after it. -/
def CancelEffective (E : List TimerObs → TimerId → Prop)
    (obs : List TimerObs) : Prop :=
  AtEach (fun pre o post => ∀ id, o = .cancelled id → E pre id →
    .started id ∉ post) obs

/-- The inductive form: the timers of those cancels are doomed. -/
def CancelInv (E : List TimerObs → TimerId → Prop) (L : TimerLoop) : Prop :=
  AtEach (fun pre o post => ∀ id, o = .cancelled id → E pre id →
    Doomed L id ∧ .started id ∉ post) L.obs

variable {E : List TimerObs → TimerId → Prop}

theorem CancelInv.effective (h : CancelInv E L) : CancelEffective E L.obs :=
  h.imp fun _ _ _ hx id ho hE => (hx id ho hE).2

/-- A step that logs nothing. -/
theorem CancelInv.quiet {a : TimerAct} (hinv : LoopInv L)
    (hm : Moves L a L') (h : CancelInv E L) (hobs : L'.obs = L.obs) :
    CancelInv E L' := by
  unfold CancelInv
  rw [hobs]
  exact h.imp fun _ _ _ hx id ho hE =>
    ⟨doomed_moves hinv hm (hx id ho hE).1, (hx id ho hE).2⟩

/-- A step that logs `o`. -/
theorem CancelInv.logged {a : TimerAct} {o : TimerObs} (hinv : LoopInv L)
    (hm : Moves L a L') (h : CancelInv E L) (hobs : L'.obs = L.obs ++ [o])
    (hstart : ∀ id, o = .started id → ¬ Doomed L id)
    (hcancel : ∀ id, o = .cancelled id → E L.obs id → Doomed L' id) :
    CancelInv E L' := by
  unfold CancelInv
  rw [hobs, atEach_snoc]
  refine ⟨h.imp fun pre x post hx id ho hE => ?_, fun id ho hE => ?_⟩
  · obtain ⟨hd, hnot⟩ := hx id ho hE
    refine ⟨doomed_moves hinv hm hd, fun hmem => ?_⟩
    rcases List.mem_append.1 hmem with hmem | hmem
    · exact hnot hmem
    · exact hstart id (List.mem_singleton.1 hmem).symm hd
  · exact ⟨hcancel id ho hE, List.not_mem_nil⟩

/-- One step, given that the cancel it may execute dooms its timer. -/
theorem cancelInv_moves {a : TimerAct} (hinv : LoopInv L)
    (hm : Moves L a L') (h : CancelInv E L)
    (hnew : ∀ id, a = .cancelInLoop id → E L.obs id → Doomed L' id) :
    CancelInv E L' := by
  have hm' := hm
  cases hm with
  | stay => exact h
  | tick t => exact h.quiet hinv hm' rfl
  | new p w r d hp hfree => exact h.logged hinv hm' rfl nofun nofun
  | add p t hf ht => exact h.logged hinv hm' rfl nofun nofun
  | drop id t hid ht =>
      refine h.logged hinv hm' rfl nofun fun id' ho hE => ?_
      cases ho
      exact hnew id rfl hE
  | mark id hid f hf =>
      refine h.logged hinv hm' rfl nofun fun id' ho hE => ?_
      cases ho
      exact hnew id rfl hE
  | miss id hid hf =>
      refine h.logged hinv hm' rfl nofun fun id' ho hE => ?_
      cases ho
      exact hnew id rfl hE
  | begin hf expired q hq => exact h.quiet hinv hm' rfl
  | run now expired e rest t hf ht =>
      refine h.logged hinv hm' rfl (fun id ho => ?_) nofun
      cases ho
      exact not_doomed_run hf ht
  | finish now expired q hf hr => exact h.quiet hinv hm' rfl

-- ==================================================== what the log knows

/-- The log names no identifier from the future, and an inserted timer
is not to be inserted again. -/
structure LogInv (L : TimerLoop) : Prop where
  issued : ∀ id, .issued id ∈ L.obs → id.sequence ≤ L.queue.numCreated
  inserted : ∀ id, .inserted id ∈ L.obs →
    id.sequence ≤ L.queue.numCreated ∧ ¬ Fresh L id

theorem logInv_create (clock : Timestamp) : LogInv (create clock) where
  issued := fun _ h => absurd h List.not_mem_nil
  inserted := fun _ h => absurd h List.not_mem_nil

theorem numCreated_moves {a : TimerAct} (hm : Moves L a L') :
    L.queue.numCreated ≤ L'.queue.numCreated := by
  cases hm with
  | new p w r d hp hfree => exact Nat.le_succ _
  | add p t hf ht =>
      obtain ⟨-, -, -, hnum, -⟩ := added_frame L.queue L.clock p t
      exact hnum.ge
  | begin hf expired q hq => exact hq.numCreated.ge
  | finish now expired q hf hr =>
      obtain ⟨-, -, -, hnum, -⟩ := rearmed_frame q L.clock
      exact (hnum.trans hr.numCreated).ge
  | stay => exact Nat.le_refl _
  | tick => exact Nat.le_refl _
  | drop => exact Nat.le_refl _
  | mark => exact Nat.le_refl _
  | miss => exact Nat.le_refl _
  | run => exact Nat.le_refl _

/-- No step makes an identifier that was handed out before wait for its
insertion. -/
theorem fresh_moves {a : TimerAct} {id : TimerId} (hinv : LoopInv L)
    (hm : Moves L a L') (hseq : id.sequence ≤ L.queue.numCreated)
    (h : Fresh L' id) : Fresh L id := by
  obtain ⟨hmem, t, ht, hs⟩ := h
  cases hm with
  | stay => exact ⟨hmem, t, ht, hs⟩
  | tick => exact ⟨hmem, t, ht, hs⟩
  | mark => exact ⟨hmem, t, ht, hs⟩
  | miss => exact ⟨hmem, t, ht, hs⟩
  | run => exact ⟨hmem, t, ht, hs⟩
  | new p w r d hp hfree =>
      rcases heap_newTimer_inv ht with ⟨-, hs'⟩ | ⟨he, ht⟩
      · -- the new object's number is larger
        omega
      · exact ⟨List.mem_of_ne_of_mem he hmem, t, ht, hs⟩
  | add p t' hf ht' =>
      obtain ⟨-, -, hheap, -⟩ := added_frame L.queue L.clock p t'
      refine ⟨List.mem_of_mem_erase hmem, t, ?_, hs⟩
      rw [← hheap]
      exact ht
  | drop id' t' hid ht' =>
      exact ⟨hmem, t, (heap_dropped_inv ht).2, hs⟩
  | begin hf expired q hq =>
      refine ⟨hmem, t, ?_, hs⟩
      rw [← show q.heap = L.queue.heap from hq.heap]
      exact ht
  | finish now expired q hf hr =>
      obtain ⟨-, -, hheap, -⟩ := rearmed_frame q L.clock
      have hp : id.timer ∉ expired.map Entry.timer := by
        intro hp
        obtain ⟨e, he, hep⟩ := List.mem_map.1 hp
        apply (hinv.batch _ hf).notFresh e he
        rw [hep]
        exact hmem
      rw [show (q.rearmed L.clock).heap = q.heap from hheap,
        hr.other _ hp] at ht
      exact ⟨hmem, t, ht, hs⟩

/-- A step that logs `new` (nothing, or one entry). -/
theorem LogInv.logged {a : TimerAct} {new : List TimerObs} (hinv : LoopInv L)
    (hm : Moves L a L') (h : LogInv L) (hobs : L'.obs = L.obs ++ new)
    (hissued : ∀ id, .issued id ∈ new → id.sequence ≤ L'.queue.numCreated)
    (hinserted : ∀ id, .inserted id ∈ new →
      id.sequence ≤ L'.queue.numCreated ∧ ¬ Fresh L' id) : LogInv L' where
  issued := by
    intro id hid
    rw [hobs] at hid
    rcases List.mem_append.1 hid with hid | hid
    · exact (h.issued id hid).trans (numCreated_moves hm)
    · exact hissued id hid
  inserted := by
    intro id hid
    rw [hobs] at hid
    rcases List.mem_append.1 hid with hid | hid
    · obtain ⟨hseq, hnot⟩ := h.inserted id hid
      exact ⟨hseq.trans (numCreated_moves hm),
        fun hf => hnot (fresh_moves hinv hm hseq hf)⟩
    · exact hinserted id hid

theorem logInv_moves {a : TimerAct} (hinv : LoopInv L) (hm : Moves L a L')
    (h : LogInv L) : LogInv L' := by
  have hm' := hm
  have hsame : ∀ {L' : TimerLoop}, Moves L a L' → L'.obs = L.obs →
      LogInv L' := by
    intro L' hm hobs
    exact h.logged hinv hm (by rw [hobs, List.append_nil])
      (fun _ hid => absurd hid List.not_mem_nil)
      (fun _ hid => absurd hid List.not_mem_nil)
  have hother : ∀ {L' : TimerLoop} {o : TimerObs}, Moves L a L' →
      L'.obs = L.obs ++ [o] → (∀ id, .issued id ≠ o) →
      (∀ id, .inserted id ≠ o) → LogInv L' := by
    intro L' o hm hobs hi hs
    exact h.logged hinv hm hobs
      (fun id hid => absurd (List.mem_singleton.1 hid) (hi id))
      (fun id hid => absurd (List.mem_singleton.1 hid) (hs id))
  cases hm with
  | stay => exact h
  | tick t => exact hsame hm' rfl
  | begin => exact hsame hm' rfl
  | finish => exact hsame hm' rfl
  | drop => exact hother hm' rfl nofun nofun
  | mark => exact hother hm' rfl nofun nofun
  | miss => exact hother hm' rfl nofun nofun
  | run => exact hother hm' rfl nofun nofun
  | new p w r d hp hfree =>
      refine h.logged hinv hm' rfl (fun id hid => ?_) (fun id hid => ?_)
      · cases List.mem_singleton.1 hid
        exact Nat.le_refl _
      · cases List.mem_singleton.1 hid
  | add p t hf ht =>
      refine h.logged hinv hm' rfl (fun id hid => ?_) (fun id hid => ?_)
      · cases List.mem_singleton.1 hid
      · cases List.mem_singleton.1 hid
        refine ⟨(hinv.seq_le p t ht).trans (numCreated_moves hm'), ?_⟩
        intro hfresh
        exact hinv.freshNodup.not_mem_erase hfresh.1

-- ===================================================== on the loop thread

/-- What holds along a run that cancels in time; the time of the clock
does not enter it. -/
structure RunInv (E : List TimerObs → TimerId → Prop) (L : TimerLoop) :
    Prop where
  inv : LoopInv L
  log : LogInv L
  cancel : CancelInv E L

theorem runInv_create (clock : Timestamp) : RunInv E (create clock) :=
  ⟨loopInv_create clock, logInv_create clock, atEach_nil⟩

theorem RunInv.setClock (h : RunInv E L) (t : Timestamp) :
    RunInv E { L with clock := t } :=
  ⟨h.inv.setClock t, ⟨h.log.issued, h.log.inserted⟩, h.cancel⟩

theorem runInv_moves {a : TimerAct} (h : RunInv E L) (hm : Moves L a L')
    (hnew : ∀ id, a = .cancelInLoop id → E L.obs id → Doomed L' id) :
    RunInv E L' :=
  ⟨loopInv_moves h.inv hm, logInv_moves h.inv hm h.log,
    cancelInv_moves h.inv hm h.cancel hnew⟩

/-- The cancel of this step, if it is one, is not for a timer that waits
in the batch for its callback. -/
def NotAwaiting (L : TimerLoop) (a : WallAct) : Prop :=
  ∀ id, a = .act (.cancelInLoop id) → ¬ AwaitsRun L id

/-- Once inserted: the cancels that count are those of timers that
`addTimerInLoop` has inserted. -/
def OnceInserted (pre : List TimerObs) (id : TimerId) : Prop :=
  .inserted id ∈ pre

/-- As long as no cancel is for a timer that waits in the batch, every
cancel of an inserted timer is effective, to whatever time the clock is
set. -/
theorem cancelEffective_of_notAwaiting (clock : Timestamp)
    (acts : List WallAct)
    (hacts : Along wallStep NotAwaiting (create clock) acts) :
    ∃ L, run wallStep (create clock) acts = .ok L
      ∧ CancelEffective OnceInserted L.obs := by
  have hstep : ∀ L a, RunInv OnceInserted L → NotAwaiting L a →
      ∃ L', L.wallStep a = .ok L' ∧ RunInv OnceInserted L' := by
    intro L a h hC
    obtain ⟨L', hok, hm⟩ := wallStep_moves h.inv a
    refine ⟨L', hok, ?_⟩
    cases hm with
    | set t => exact h.setClock t
    | act a L' hm =>
        refine runInv_moves h hm fun id ha hins => ?_
        subst ha
        obtain ⟨hseq, hfresh⟩ := h.log.inserted id hins
        exact doomed_of_cancel h.inv hm hseq hfresh (hC id rfl)
  obtain ⟨L, hrun, h⟩ := run_safe hstep (runInv_create clock) hacts
  exact ⟨L, hrun, h.cancel.effective⟩

/-- A timer cancelled while it waits, and one cancelled by its own
callback, with the clock set back on the way: neither runs again. -/
def cancelBetween : List WallAct :=
  [.act (.newTimer 100 ⟨3⟩ true 10), .act (.addTimerInLoop 100),
    .act (.newTimer 200 ⟨40⟩ true 10), .act (.addTimerInLoop 200),
    .act (.cancelInLoop ⟨200, 2⟩), .act (.tick ⟨10⟩), .act .beginRead,
    .act .runNext, .set ⟨1⟩, .act (.cancelInLoop ⟨100, 1⟩), .act .endRead,
    .act (.tick ⟨100⟩), .act .beginRead, .act .endRead]

theorem cancelEffective_between :
    Along wallStep NotAwaiting (create ⟨5⟩) cancelBetween
      ∧ ∃ L, run wallStep (create ⟨5⟩) cancelBetween = .ok L
        ∧ CancelEffective OnceInserted L.obs := by
  have hacts : Along wallStep NotAwaiting (create ⟨5⟩) cancelBetween := by
    refine along_step nofun rfl (along_step nofun rfl (along_step nofun rfl
      (along_step nofun rfl (along_step ?_ rfl (along_step nofun rfl
        (along_step nofun rfl (along_step nofun rfl (along_step nofun rfl
          (along_step ?_ rfl (along_step nofun rfl (along_step nofun rfl
            (along_step nofun rfl (along_step nofun rfl
              (along_nil _))))))))))))))
    · intro id _ h
      obtain ⟨f, hf, -⟩ := h
      cases hf
    · -- the batch is empty by now
      intro id _ h
      obtain ⟨f, hf, e, he, -⟩ := h
      cases hf
      cases he
  exact ⟨hacts, cancelEffective_of_notAwaiting ⟨5⟩ cancelBetween hacts⟩

/-- Two timers expire together, and the first one's callback cancels the
second: the second one's callback runs all the same. -/
def cancelInBatch : List WallAct :=
  [.act (.newTimer 100 ⟨3⟩ false 0), .act (.addTimerInLoop 100),
    .act (.newTimer 200 ⟨4⟩ true 10), .act (.addTimerInLoop 200),
    .act (.tick ⟨10⟩), .act .beginRead, .act .runNext,
    .act (.cancelInLoop ⟨200, 2⟩), .act .runNext, .act .endRead]

theorem cancel_in_batch_runs :
    ∃ L, run wallStep (create ⟨5⟩) cancelInBatch = .ok L
      ∧ ¬ CancelEffective OnceInserted L.obs := by
  refine ⟨_, rfl, fun h => ?_⟩
  refine h [.issued ⟨100, 1⟩, .inserted ⟨100, 1⟩, .issued ⟨200, 2⟩,
    .inserted ⟨200, 2⟩, .started ⟨100, 1⟩] (.cancelled ⟨200, 2⟩)
    [.started ⟨200, 2⟩] rfl ⟨200, 2⟩ rfl ?_ ?_
  · simp [OnceInserted]
  · simp

end Cobra.TimerLoop

namespace Cobra.TimerThreads

open Machine TimerQueue TimerLoop

variable {s s' : TimerThreads}

-- ======================================================= across threads

/-- The step makes the loop thread run `cancelInLoop(id)`: called there,
or next in the batch of functors. -/
def Executes (s : TimerThreads) (c : TimerCall) (id : TimerId) : Prop :=
  c = .cancel s.threadId id
    ∨ c = .call ∧ s.loop.frame = none
      ∧ s.queue.functors.head? = some (.cancelInLoop id)

/-- What a step of the system does to the queue: nothing, or one action
of it, which is a cancel only when the loop thread runs one; or the clock
is set. -/
def LoopMoves (s : TimerThreads) (c : TimerCall) (s' : TimerThreads) : Prop :=
  s'.loop = s.loop
    ∨ (∃ a, Moves s.loop a s'.loop
      ∧ ∀ id, a = .cancelInLoop id → Executes s c id)
    ∨ ∃ t, s'.loop = { s.loop with clock := t }

theorem inLoop_moves {c : TimerCall} {r : TimerThreads} (h : LoopInv s.loop)
    (hr : r.loop = s.loop) (a : TimerAct)
    (ha : ∀ id, a = .cancelInLoop id → Executes s c id) :
    ∃ s', r.inLoop a = .ok s' ∧ LoopMoves s c s' := by
  obtain ⟨L', hok, hm⟩ := step_moves h a
  refine ⟨{ r with loop := L' }, ?_, .inr (.inl ⟨a, hm, ha⟩)⟩
  unfold inLoop
  rw [hr, hok, ok_bind]

theorem runInLoop_moves {c : TimerCall} {r : TimerThreads} {t : Nat}
    (h : LoopInv s.loop) (hr : r.loop = s.loop) (f : TimerFunctor)
    (hf : r.threadId = t → ∀ id, f = .cancelInLoop id → Executes s c id) :
    ∃ s', r.runInLoop t f = .ok s' ∧ LoopMoves s c s' := by
  unfold runInLoop
  split
  next ht =>
    refine inLoop_moves h hr f.act fun id ha => ?_
    apply hf (by simpa using ht) id
    cases f with
    | addTimerInLoop p => cases ha
    | cancelInLoop id' => cases ha; rfl
  next => exact ⟨_, rfl, .inl hr⟩

/-- Under the invariant of the queue no step of the system fails. -/
theorem step_loopMoves (h : LoopInv s.loop) (c : TimerCall) :
    ∃ s', s.step c = .ok s' ∧ LoopMoves s c s' := by
  cases c with
  | tick t => exact inLoop_moves h rfl _ nofun
  | set t => exact ⟨_, rfl, .inr (.inr ⟨t, rfl⟩)⟩
  | newTimer p w r d =>
      simp only [step]
      split
      · exact inLoop_moves h (by rfl) _ nofun
      · exact ⟨s, rfl, .inl rfl⟩
  | addTimer t p =>
      simp only [step]
      split
      · exact runInLoop_moves h (by rfl) _ nofun
      · exact ⟨s, rfl, .inl rfl⟩
  | cancel t id =>
      refine runInLoop_moves h rfl _ fun ht id' hid => ?_
      cases hid
      subst ht
      exact .inl rfl
  | swap =>
      simp only [step]
      split
      · exact ⟨_, rfl, .inl rfl⟩
      · exact ⟨s, rfl, .inl rfl⟩
  | call =>
      simp only [step]
      split
      next f rest hq hf =>
        refine inLoop_moves h (by rfl) f.act fun id ha => ?_
        refine .inr ⟨rfl, hf, ?_⟩
        rw [hq]
        cases f with
        | addTimerInLoop p => cases ha
        | cancelInLoop id' => cases ha; rfl
      next => exact ⟨s, rfl, .inl rfl⟩
  | beginRead =>
      simp only [step]
      split
      · exact inLoop_moves h rfl _ nofun
      · exact ⟨s, rfl, .inl rfl⟩
  | runNext => exact inLoop_moves h rfl _ nofun
  | endRead => exact inLoop_moves h rfl _ nofun

/-- The cancel that this step executes, if any, comes after the timer's
insertion and is not for a timer that waits in the batch. -/
def CancelsInTime (s : TimerThreads) (c : TimerCall) : Prop :=
  ∀ id, Executes s c id → ¬ Fresh s.loop id ∧ ¬ AwaitsRun s.loop id

/-- Issued by `addTimer`, and its callback not started yet. -/
def NotStarted (pre : List TimerObs) (id : TimerId) : Prop :=
  .issued id ∈ pre ∧ .started id ∉ pre

/-- As long as the loop executes no cancel ahead of the timer's insertion
or while the timer waits in the batch, a timer cancelled before its
callback has been started is never started, to whatever time the clock is
set. -/
theorem cancelEffective_of_cancelsInTime (threadId : Nat) (clock : Timestamp)
    (calls : List TimerCall)
    (hcalls : Along step CancelsInTime (create threadId clock) calls) :
    ∃ s, run step (create threadId clock) calls = .ok s
      ∧ CancelEffective NotStarted s.loop.obs := by
  have hstep : ∀ s c, RunInv NotStarted s.loop → CancelsInTime s c →
      ∃ s', s.step c = .ok s' ∧ RunInv NotStarted s'.loop := by
    intro s c h hC
    obtain ⟨s', hok, hm⟩ := step_loopMoves h.inv c
    refine ⟨s', hok, ?_⟩
    rcases hm with hsame | ⟨a, hm, hexec⟩ | ⟨t, hset⟩
    · rw [hsame]
      exact h
    · refine runInv_moves h hm fun id ha hE => ?_
      obtain ⟨hfresh, hrun⟩ := hC id (hexec id ha)
      subst ha
      exact doomed_of_cancel h.inv hm (h.log.issued id hE.1) hfresh hrun
    · rw [hset]
      exact h.setClock t
  have hinit : RunInv NotStarted (create threadId clock).loop :=
    runInv_create clock
  obtain ⟨s, hrun, h⟩ := run_safe hstep hinit hcalls
  exact ⟨s, hrun, h.cancel.effective⟩

/-- Thread 1 adds a timer and thread 2 cancels it, both through the
queue: the insertion comes first. The clock is set back in between. -/
def cancelQueued : List TimerCall :=
  [.newTimer 100 ⟨7⟩ true 10, .addTimer 1 100, .cancel 2 ⟨100, 1⟩, .swap,
    .call, .set ⟨2⟩, .call, .tick ⟨10⟩, .beginRead, .runNext, .endRead]

theorem cancelEffective_queued :
    Along step CancelsInTime (create 0 ⟨5⟩) cancelQueued
      ∧ ∃ s, run step (create 0 ⟨5⟩) cancelQueued = .ok s
        ∧ CancelEffective NotStarted s.loop.obs := by
  have hnot : ∀ {s : TimerThreads} {c : TimerCall},
      (∀ id, c ≠ .cancel s.threadId id) → c ≠ .call → CancelsInTime s c := by
    intro s c hcancel hcall id h
    rcases h with h | ⟨h, -⟩
    · exact absurd h (hcancel id)
    · exact absurd h hcall
  have hcalls : Along step CancelsInTime (create 0 ⟨5⟩) cancelQueued := by
    refine along_step (hnot nofun nofun) rfl
      (along_step (hnot nofun nofun) rfl
        (along_step (hnot nofun nofun) rfl
          (along_step (hnot nofun nofun) rfl
            (along_step ?_ rfl (along_step (hnot nofun nofun) rfl
              (along_step ?_ rfl (along_step (hnot nofun nofun) rfl
                (along_step (hnot nofun nofun) rfl
                  (along_step (hnot nofun nofun) rfl
                    (along_step (hnot nofun nofun) rfl
                      (along_nil _)))))))))))
    · -- the first functor is the insertion
      intro id h
      rcases h with h | ⟨-, -, h⟩
      · cases h
      · cases h
    · -- the second one finds it done
      intro id _
      constructor
      · intro h
        exact absurd h.1 List.not_mem_nil
      · intro h
        obtain ⟨f, hf, -⟩ := h
        cases hf
  exact ⟨hcalls, cancelEffective_of_cancelsInTime 0 ⟨5⟩ cancelQueued hcalls⟩

/-- Thread 1's `addTimer` has returned, with the insertion in the queue;
the loop thread cancels the timer at once. The cancel finds nothing to
cancel, and the timer runs. -/
def cancelOvertakes : List TimerCall :=
  [.newTimer 100 ⟨7⟩ false 0, .addTimer 1 100, .cancel 0 ⟨100, 1⟩, .swap,
    .call, .tick ⟨10⟩, .beginRead, .runNext, .endRead]

theorem cancel_overtakes_add :
    ∃ s, run step (create 0 ⟨5⟩) cancelOvertakes = .ok s
      ∧ ¬ CancelEffective NotStarted s.loop.obs := by
  refine ⟨_, rfl, fun h => ?_⟩
  refine h [.issued ⟨100, 1⟩] (.cancelled ⟨100, 1⟩)
    [.inserted ⟨100, 1⟩, .started ⟨100, 1⟩] rfl ⟨100, 1⟩ rfl ?_ ?_
  · simp [NotStarted]
  · simp

end Cobra.TimerThreads
