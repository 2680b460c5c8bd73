/-
Whether the destructor's `Quit` can be lost, over every interleaving of
a worker thread with its owner and with the other threads.

# The race

`worker_` is published before `Worker::Loop` runs its prologue, and the
prologue ends in `quit_ = false`. A `Quit` that falls in between is
overwritten: the loop starts, and the owner waits in `join` for a thread
that will never look at it again. `Quit_before_prologue` is that run.

# The exact condition

`quitKept_iff` says that this is the only way. Along a run, `quit_` stays
set from the destructor's `Quit` on, and the next test of the loop ends
it, exactly when the assignment of the prologue is not executed after the
`Quit`. No other step clears `quit_`: a `Loop` called by `init_cb_` comes
before the publication, and a nested one fails its assertion.
-/
import Cobra.WorkerThread
import Cobra.Proofs.Worker

namespace Cobra

open Machine

variable {F : Type}

-- ======================================= what a worker's step leaves alone

namespace Worker

variable {w w' : Worker F} {a : WorkerAct F}

/-- A call moves neither the loop nor the other threads. -/
theorem Moves.of_caller (h : Moves w a w') {t : Nat}
    (ht : a.caller = some t) :
    w'.pc = w.pc ∧ w'.looping = w.looping
      ∧ ∀ u, u ≠ t → w'.threads u = w.threads u := by
  cases h with
  | stay => exact ⟨rfl, rfl, fun _ _ => rfl⟩
  | queue t' f =>
      cases ht
      exact ⟨rfl, rfl, fun u hu => Function.update_of_ne hu _ _⟩
  | run t' f =>
      cases ht
      exact ⟨rfl, rfl, fun u hu => Function.update_of_ne hu _ _⟩
  | quit t' =>
      cases ht
      exact ⟨rfl, rfl, fun u hu => Function.update_of_ne hu _ _⟩
  | wake t' =>
      cases ht
      obtain ⟨-, hpc, -, -, -, -, -, hl⟩ := afterCall_frame w t
      refine ⟨hpc, hl, fun u hu => ?_⟩
      unfold afterCall
      split
      · rfl
      · split <;> exact Function.update_of_ne hu _ _
      · split <;> exact Function.update_of_ne hu _ _
  | _ => cases ht

/-- The loop's own phases move no thread's call. -/
theorem Moves.of_loop (h : Moves w a w') (ht : a.caller = none) :
    w'.threads = w.threads := by
  cases h with
  | queue t f => cases ht
  | run t f => cases ht
  | wake t => cases ht
  | quit t => cases ht
  | call =>
      unfold callFunctor
      split <;> rfl
  | _ => rfl

/-- Only the prologue of `Loop` clears `quit_`. -/
theorem Moves.quit_stays (h : Moves w a w') (hq : w.quit = true) :
    w'.quit = true ∨ (a = .Loop ∧ w.looping = false) := by
  cases h with
  | quit t => exact .inl rfl
  | loop _ hl => exact .inr ⟨rfl, hl⟩
  | wake t =>
      refine .inl ?_
      unfold afterCall
      split
      · exact hq
      · split <;> exact hq
      · split <;> exact hq
  | call =>
      refine .inl ?_
      unfold callFunctor
      split <;> exact hq
  | _ => exact .inl hq

end Worker

namespace WorkerThread

variable {s s' : WorkerThread F}

-- ======================================================= the invariant

/-- `worker_` has not been published yet. -/
def early (s : WorkerThread F) : Prop :=
  s.func = .notStarted ∨ s.func = .constructing ∨ s.func = .initializing

/-- What holds as long as the prologue does not overwrite a `Quit`. -/
structure Inv (s : WorkerThread F) : Prop where
  queue : s.worker.QueueInv
  thread : s.worker.threadId = funcThread
  /-- nobody can quit a worker that is not published -/
  hidden : s.early →
    s.published = false ∧ s.owner ≠ .quitting ∧ s.quitCalled = false
  /-- the loop thread stands still between publication and loop -/
  outside : s.func = .entering ∨ s.func = .resetting →
    s.worker.pc = .outside
  entered : s.func = .resetting → s.worker.looping = true
  /-- the owner enters the destructor with no call of its own open -/
  idle : s.owner = .testing ∨ s.owner = .quitting →
    s.worker.threads ownerThread = .idle
  kept : s.quitCalled = true → s.worker.quit = true

theorem inv_create (b : Bool) : Inv (create b : WorkerThread F) where
  queue := Worker.queueInv_create _
  thread := rfl
  hidden := fun _ => ⟨rfl, by simp [create], rfl⟩
  outside := fun _ => rfl
  entered := fun h => by cases h
  idle := fun _ => rfl
  kept := fun h => by cases h

/-- Who is at work when the loop thread runs. -/
theorem loopThreadRuns_inv (h : s.loopThreadRuns = true) :
    s.func = .initializing ∨ (s.func = .looping ∧ s.worker.pc ≠ .outside) := by
  simp only [loopThreadRuns, Bool.or_eq_true, Bool.and_eq_true, beq_iff_eq,
    bne_iff_ne] at h
  tauto

/-- Between publication and loop only the other threads act. -/
theorem mayAct_caller {a : WorkerAct F} (h : s.mayAct a = true)
    (hf : s.func = .entering ∨ s.func = .resetting) :
    ∃ t, a.caller = some t := by
  cases hc : a.caller with
  | some t => exact ⟨t, rfl⟩
  | none =>
      rw [mayAct, hc] at h
      rcases loopThreadRuns_inv h with hi | ⟨hl, -⟩
      · rw [hi] at hf
        simp at hf
      · rw [hl] at hf
        simp at hf

/-- In the destructor the owner makes no other call. -/
theorem mayAct_owner {a : WorkerAct F} (h : s.mayAct a = true)
    (ho : s.owner ≠ .returned) : a.caller ≠ some ownerThread := by
  intro hc
  rw [mayAct, hc] at h
  simp [ownerThread, funcThread, ho] at h

/-- A `Loop` that the loop thread may call and that would pass its
assertion is one of `init_cb_`. -/
theorem Inv.Loop_early (h : Inv s) (hmay : s.mayAct .Loop = true)
    (hl : s.worker.looping = false) : s.early := by
  rcases loopThreadRuns_inv hmay with hi | ⟨-, hpc⟩
  · exact .inr (.inr hi)
  · exact absurd (h.queue.inside hl) hpc

/-- An action of the worker keeps the invariant. -/
theorem Inv.moves (h : Inv s) {a : WorkerAct F} {w : Worker F}
    (hmay : s.mayAct a = true) (hm : Worker.Moves s.worker a w) :
    Inv { s with worker := w } where
  queue := Worker.queueInv_moves h.queue hm
  thread := hm.threadId.trans h.thread
  hidden := h.hidden
  outside := by
    intro hf
    obtain ⟨t, ht⟩ := mayAct_caller hmay hf
    exact (hm.of_caller ht).1.trans (h.outside hf)
  entered := by
    intro hf
    obtain ⟨t, ht⟩ := mayAct_caller hmay (.inr hf)
    exact (hm.of_caller ht).2.1.trans (h.entered hf)
  idle := by
    intro ho
    have hidle := h.idle ho
    have hne : s.owner ≠ .returned := by
      rcases ho with ho | ho <;> rw [ho] <;> simp
    cases hc : a.caller with
    | none =>
        show w.threads ownerThread = .idle
        rw [hm.of_loop hc]
        exact hidle
    | some t =>
        have ht : ownerThread ≠ t := by
          intro ht
          exact mayAct_owner hmay hne (by rw [hc, ht])
        exact ((hm.of_caller hc).2.2 _ ht).trans hidle
  kept := by
    intro hq
    rcases hm.quit_stays (h.kept hq) with hq' | ⟨rfl, hl⟩
    · exact hq'
    · -- `init_cb_` runs before anybody can quit
      have hno := (h.hidden (h.Loop_early hmay hl)).2.2
      rw [hno] at hq
      cases hq

-- ================================================== what a run promises

/-- The step keeps the destructor's `Quit`: after it `quit_` is still
set unless the loop has been left, and if it is the loop test, the loop
is left. -/
structure QuitKept (s : WorkerThread F) (a : WorkerThreadAct F) : Prop where
  kept : ∀ s', s.step a = .ok s' → s'.quitCalled = true →
    s'.left = false → s'.worker.quit = true
  ends : s.quitCalled = true → a = .worker .test → s.func = .looping →
    s.worker.canLoop .test = true →
    ∃ s', s.step a = .ok s' ∧ s'.left = true

/-- The assignment `quit_ = false` of the prologue is not executed after
the destructor's `Quit`. -/
def PrologueFirst (s : WorkerThread F) (a : WorkerThreadAct F) : Prop :=
  a = .resetQuit → s.func = .resetting → s.quitCalled = false

-- ============================================ the steps of the new thread

theorem inv_construct (h : Inv s) (hf : s.func = .constructing) :
    Inv { s with
      worker := (.create funcThread : Worker F), func := .initializing } where
  queue := Worker.queueInv_create _
  thread := rfl
  hidden := fun _ => h.hidden (.inr (.inl hf))
  outside := fun _ => rfl
  entered := fun h' => by cases h'
  idle := fun _ => rfl
  kept := by
    intro hq
    rw [(h.hidden (.inr (.inl hf))).2.2] at hq
    cases hq

theorem inv_publish (h : Inv s) (hpc : s.worker.pc = .outside) :
    Inv { s with published := true, func := .entering } where
  queue := h.queue
  thread := h.thread
  hidden := by
    intro he
    simp [early] at he
  outside := fun _ => hpc
  entered := fun h' => by cases h'
  idle := h.idle
  kept := h.kept

theorem inv_setLooping (h : Inv s) (hf : s.func = .entering) :
    Inv { s with
      worker := { s.worker with looping := true }, func := .resetting } where
  queue := h.queue.congr rfl rfl rfl rfl h.queue.rest (fun hl => by cases hl)
  thread := h.thread
  hidden := by
    intro he
    simp [early] at he
  outside := fun _ => h.outside (.inl hf)
  entered := fun _ => rfl
  idle := h.idle
  kept := h.kept

/-- The assignment of the prologue is harmless before the `Quit`. -/
theorem inv_resetQuit (h : Inv s) (hf : s.func = .resetting)
    (hq : s.quitCalled = false) :
    Inv { s with
      worker := { s.worker with quit := false, pc := .test }
      func := .looping } where
  queue := by
    have hpc := h.outside (.inr hf)
    refine h.queue.congr rfl rfl rfl rfl (fun _ _ => ?_) (fun hl => ?_)
    · exact h.queue.rest (by rw [hpc]; simp) (by rw [hpc]; simp)
    · exact absurd ((h.entered hf).symm.trans hl) (by simp)
  thread := h.thread
  hidden := by
    intro he
    simp [early] at he
  outside := fun h' => by simp at h'
  entered := fun h' => by cases h'
  idle := h.idle
  kept := fun h' => absurd (hq.symm.trans h') (by simp)

theorem inv_leave (h : Inv s) :
    Inv { s with published := false, func := .exited } where
  queue := h.queue
  thread := h.thread
  hidden := by
    intro he
    simp [early] at he
  outside := fun h' => by simp at h'
  entered := fun h' => by cases h'
  idle := h.idle
  kept := h.kept

-- ================================================ the steps of the owner

/-- The owner moves on without touching the worker. -/
theorem inv_owner (h : Inv s) {b : Bool} {o : OwnerPc}
    (hquit : o = .quitting → s.published = true)
    (hidle : o = .testing ∨ o = .quitting →
      s.worker.threads ownerThread = .idle) :
    Inv { s with exiting := b, owner := o } where
  queue := h.queue
  thread := h.thread
  hidden := by
    intro he
    obtain ⟨hp, -, hq⟩ := h.hidden he
    refine ⟨hp, fun ho => ?_, hq⟩
    rw [hquit ho] at hp
    cases hp
  outside := h.outside
  entered := h.entered
  idle := hidle
  kept := h.kept

theorem inv_StartLoop (h : Inv s) (hf : s.func = .notStarted) :
    Inv { s with func := .constructing, owner := .waiting } where
  queue := h.queue
  thread := h.thread
  hidden := by
    intro _
    obtain ⟨hp, -, hq⟩ := h.hidden (.inl hf)
    exact ⟨hp, by simp, hq⟩
  outside := fun h' => by simp at h'
  entered := fun h' => by cases h'
  idle := fun h' => by simp at h'
  kept := h.kept

/-- The destructor's `Quit` is not turned away: it does set `quit_`. -/
theorem Inv.canQuit (h : Inv s) (ho : s.owner = .quitting) :
    s.worker.canCall ownerThread = true := by
  have hidle := h.idle (.inr ho)
  have hth : s.worker.isInLoopThread ownerThread = false := by
    rw [Worker.isInLoopThread, h.thread]
    rfl
  rw [Worker.canCall, hidle, hth]
  rfl

theorem inv_Quit (h : Inv s) (ho : s.owner = .quitting) {w : Worker F}
    (hw : s.worker.step (.Quit ownerThread) = .ok w) :
    Inv { s with worker := w, owner := .waking, quitCalled := true } := by
  have hm := Worker.step_moves hw
  have hquit : w.quit = true := by
    simp only [Worker.step, h.canQuit ho, if_true] at hw
    cases hw
    rfl
  obtain ⟨hpc, hl, -⟩ := hm.of_caller rfl
  exact
    { queue := Worker.queueInv_moves h.queue hm
      thread := hm.threadId.trans h.thread
      hidden := fun he => absurd ho (h.hidden he).2.1
      outside := fun hf => hpc.trans (h.outside hf)
      entered := fun hf => hl.trans (h.entered hf)
      idle := fun h' => by simp at h'
      kept := fun _ => hquit }

theorem inv_wakeup (h : Inv s) {w : Worker F}
    (hw : s.worker.step (.wakeup ownerThread) = .ok w) :
    Inv { s with worker := w, owner := .joining } := by
  have hm := Worker.step_moves hw
  obtain ⟨hpc, hl, -⟩ := hm.of_caller rfl
  exact
    { queue := Worker.queueInv_moves h.queue hm
      thread := hm.threadId.trans h.thread
      hidden := fun he => ⟨(h.hidden he).1, by simp, (h.hidden he).2.2⟩
      outside := fun hf => hpc.trans (h.outside hf)
      entered := fun hf => hl.trans (h.entered hf)
      idle := fun h' => by simp at h'
      kept := by
        intro hq
        rcases hm.quit_stays (h.kept hq) with hq' | ⟨hne, -⟩
        · exact hq'
        · cases hne }

-- ============================================================= the runs

/-- A step that does not overwrite a `Quit` keeps the invariant. -/
theorem inv_step {a : WorkerThreadAct F} (h : Inv s)
    (hC : PrologueFirst s a) (hok : s.step a = .ok s') : Inv s' := by
  cases a with
  | StartLoop =>
      simp only [step] at hok
      split at hok
      · obtain ⟨u, hf, hok⟩ := bind_ok_inv hok
        cases hok
        exact inv_StartLoop h (require_inv hf)
      · cases hok
        exact h
  | startLoopReturns =>
      simp only [step] at hok
      split at hok
      · cases hok
        exact inv_owner h (by simp) (by simp)
      · cases hok
        exact h
  | construct =>
      simp only [step] at hok
      split at hok
      next hf =>
        cases hok
        exact inv_construct h (by simpa using hf)
      next =>
        cases hok
        exact h
  | publish =>
      simp only [step] at hok
      split at hok
      next hc =>
        cases hok
        simp only [Bool.and_eq_true] at hc
        exact inv_publish h (Worker.canLoop_inv hc.2).1
      next =>
        cases hok
        exact h
  | setLooping =>
      simp only [step] at hok
      split at hok
      next hf =>
        obtain ⟨-, -, hok⟩ := bind_ok_inv hok
        cases hok
        exact inv_setLooping h (by simpa using hf)
      next =>
        cases hok
        exact h
  | resetQuit =>
      simp only [step] at hok
      split at hok
      next hf =>
        have hf' : s.func = .resetting := by simpa using hf
        cases hok
        exact inv_resetQuit h hf' (hC rfl hf')
      next =>
        cases hok
        exact h
  | leave =>
      simp only [step] at hok
      split at hok
      · cases hok
        exact inv_leave h
      · cases hok
        exact h
  | worker a =>
      simp only [step] at hok
      split at hok
      next hmay =>
        obtain ⟨w, hw, hok⟩ := bind_ok_inv hok
        cases hok
        exact h.moves hmay (Worker.step_moves (mapError_ok_inv hw))
      next =>
        cases hok
        exact h
  | destroy =>
      simp only [step] at hok
      split at hok
      next hc =>
        cases hok
        simp only [Bool.and_eq_true, beq_iff_eq] at hc
        exact inv_owner h (by simp) (fun _ => hc.2)
      next =>
        cases hok
        exact h
  | testWorker =>
      simp only [step] at hok
      split at hok
      next ho =>
        have hidle := h.idle (.inl (by simpa using ho))
        split at hok
        next hp =>
          cases hok
          exact inv_owner h (fun _ => hp) (fun _ => hidle)
        next =>
          cases hok
          exact inv_owner h (by simp) (by simp)
      next =>
        cases hok
        exact h
  | Quit =>
      simp only [step] at hok
      split at hok
      next ho =>
        obtain ⟨-, -, hok⟩ := bind_ok_inv hok
        obtain ⟨s₁, hs₁, hok⟩ := bind_ok_inv hok
        obtain ⟨w, hw, hs₁⟩ := bind_ok_inv hs₁
        cases hs₁
        cases hok
        exact inv_Quit h (by simpa using ho) (mapError_ok_inv hw)
      next =>
        cases hok
        exact h
  | wakeup =>
      simp only [step] at hok
      split at hok
      · obtain ⟨-, -, hok⟩ := bind_ok_inv hok
        obtain ⟨s₁, hs₁, hok⟩ := bind_ok_inv hok
        obtain ⟨w, hw, hs₁⟩ := bind_ok_inv hs₁
        cases hs₁
        cases hok
        exact inv_wakeup h (mapError_ok_inv hw)
      · cases hok
        exact h
  | join =>
      simp only [step] at hok
      split at hok
      · cases hok
        exact inv_owner h (by simp) (by simp)
      · cases hok
        exact h

/-- With `quit_` set, the loop test leaves the loop. -/
theorem test_leaves (hq : s.worker.quit = true) (hf : s.func = .looping)
    (hpc : s.worker.canLoop .test = true) :
    ∃ s', s.step (.worker .test) = .ok s' ∧ s'.left = true := by
  have hne : s.worker.pc ≠ .outside := by
    rw [(Worker.canLoop_inv hpc).1]
    simp
  have hmay : s.mayAct .test = true := by
    simp [mayAct, WorkerAct.caller, loopThreadRuns, hf, hne]
  refine ⟨{ s with worker := { s.worker with looping := false, pc := .outside } },
    ?_, ?_⟩
  · simp [step, hmay, onWorker, Worker.step, hpc, hq, Except.mapError]
  · simp [left, hf]

/-- The assignment of the prologue loses a `Quit` made before it: it
clears `quit_`, and the loop has not even begun. -/
theorem not_quitKept_resetQuit (hf : s.func = .resetting)
    (hq : s.quitCalled = true) : ¬ QuitKept s .resetQuit := by
  intro hk
  have hok : s.step .resetQuit = .ok { s with
      worker := { s.worker with quit := false, pc := .test }
      func := .looping } := by
    simp [step, hf]
  have hbad := hk.kept _ hok hq rfl
  cases hbad

/-- Under the invariant a step keeps the `Quit` exactly when it does not
overwrite it. -/
theorem quitKept_step_iff (h : Inv s) (a : WorkerThreadAct F) :
    QuitKept s a ↔ PrologueFirst s a := by
  constructor
  · intro hk ha hf
    subst ha
    cases hq : s.quitCalled with
    | false => rfl
    | true => exact absurd hk (not_quitKept_resetQuit hf hq)
  · intro hC
    refine ⟨fun s' hok hq _ => (inv_step h hC hok).kept hq, ?_⟩
    intro hq ha hf hpc
    subst ha
    exact test_leaves (h.kept hq) hf hpc

/-- Along every run of a worker thread with its owner and any other
threads, the destructor's `Quit` is kept, and ends the loop at the next
test, exactly when the prologue's `quit_ = false` is never executed after
it. -/
theorem quitKept_iff (initCb : Bool) (acts : List (WorkerThreadAct F)) :
    Along step QuitKept (create initCb) acts
      ↔ Along step PrologueFirst (create initCb) acts :=
  along_congr (fun _ a h => quitKept_step_iff h a)
    (fun _ _ _ h hC hok => inv_step h hC hok) (inv_create initCb)

/-- The owner destroys the thread right after `StartLoop` returned, before
the new thread has entered `Loop`. The prologue clears `quit_`, the loop
test goes on to `poll`, and the owner is left in `join`. -/
theorem Quit_before_prologue :
    ¬ ∀ acts : List (WorkerThreadAct Nat),
      Along step QuitKept (create false) acts := by
  intro h
  obtain ⟨s, hrun, hs⟩ := map_ok_inv
    (show (run step (create false : WorkerThread Nat)
        [.StartLoop, .construct, .publish, .startLoopReturns, .destroy,
          .testWorker, .Quit, .wakeup, .setLooping]).map
        (fun s => (s.func, s.owner, s.quitCalled))
      = .ok (.resetting, .joining, true) by decide +kernel)
  simp only [Prod.mk.injEq] at hs
  exact not_quitKept_resetQuit hs.1 hs.2.2
    (Along.of_run [] (h _) hrun)

end WorkerThread

end Cobra
