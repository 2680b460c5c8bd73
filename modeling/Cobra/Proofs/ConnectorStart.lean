/-
When the assertions of `startInLoop` and `connecting` hold, and what a
stopped connector can do.

# One attempt at a time

What may still run `startInLoop` is counted: an attempt under way, a
`startInLoop` that is due and a timer that is set. The calls are orderly
when each `start` finds none of them, and then there is never more than
one (`StartInv`). The queue being first in, first out, a `startInLoop`
that is due comes after the `resetChannel` of the attempt before it, so a
`start` from another thread need not wait for `channel_` to be reset; one
on the loop thread must, and so must a timer. `stop` does not cancel the
timer, and a `start` before it has fired is not orderly.

# Stopping

Between a `stop` and its `stopInLoop` the attempt may still end by
itself. `handleWrite` sets `kConnected` before it looks at `connect_`, so
a connection that is up in between leaves the connector in `kConnected`
with nothing handed over (`late_success_sticks`). Without that,
the connector is in `kDisconnected` when `stopInLoop` has run
(`restartable_run`).
-/
import Cobra.Proofs.ConnectorSockets

namespace Cobra.Connector

open Machine

variable {U : Type} {s s' : Connector U}

-- ================================================ attempts, one at a time

/-- An attempt is under way. -/
def attempting (s : Connector U) : Nat :=
  if s.state = .kConnecting then 1 else 0

theorem attempting_one (h : s.state = .kConnecting) : s.attempting = 1 :=
  if_pos h

theorem attempting_zero (h : s.state ≠ .kConnecting) : s.attempting = 0 :=
  if_neg h

/-- A timer is set when the attempt failed. -/
theorem retry_timers (s : Connector U) (sockfd : Nat) :
    s.timers.length ≤ (s.retry sockfd).timers.length
      ∧ (s.retry sockfd).timers.length ≤ s.timers.length + 1 := by
  rw [retry_eq]
  show s.timers.length ≤ (if _ then _ else _ : List Nat).length
    ∧ (if _ then _ else _ : List Nat).length ≤ _
  split
  · rw [List.length_append, List.length_singleton]
    omega
  · omega

theorem Begins.timers (h : Begins s s') :
    s.timers.length ≤ s'.timers.length
      ∧ s'.attempting + s'.timers.length ≤ s.timers.length + 1 := by
  cases h with
  | stopped hst =>
      rw [attempting_zero (by simp [hst])]
      omega
  | pending => exact ⟨le_rfl, Nat.add_comm _ _ ▸ le_rfl⟩
  | retry hst hc =>
      have ht := retry_timers s.newSocket s.sockets.length
      rw [attempting_zero (by simp), Nat.zero_add]
      exact ht
  | failed hst =>
      rw [attempting_zero (by show s.state ≠ _; rw [hst]; decide)]
      show s.timers.length ≤ s.timers.length ∧ 0 + s.timers.length ≤ _
      omega

theorem Ends.timers {o : Option Nat} (h : Ends s s' o) :
    s.timers.length ≤ s'.timers.length
      ∧ s'.timers.length ≤ s.timers.length + 1
      ∧ s'.state ≠ .kConnecting
      ∧ (s'.state = .kConnected → s'.timers.length = s.timers.length) := by
  cases h with
  | retry channel =>
      obtain ⟨h₁, h₂⟩ := retry_timers (s.detached channel) channel.fd
      exact ⟨h₁, h₂, by simp, by simp⟩
  | handed channel =>
      exact ⟨le_rfl, Nat.le_succ _,
        nofun, fun _ => rfl⟩
  | late channel =>
      exact ⟨le_rfl, Nat.le_succ _,
        nofun, fun _ => rfl⟩

-- ========================================================= the order

/-- Nothing may still run `startInLoop`, `n` timers aside. -/
def AtRest (n : Nat) (s : Connector U) : Prop :=
  s.state = .kDisconnected ∧ .startInLoop ∉ s.due ∧ s.timers.length = n

/-- The action keeps the order: `start` comes when nothing may still run
`startInLoop`, `restart` after a handover, and what runs `startInLoop` at
once runs it when `channel_` is reset. The first `n` timers do not
fire. -/
def Orderly (n : Nat) (s : Connector U) : ConnectorAct U → Prop
  | .start t _ => s.loop.canCall t = true → AtRest n s
      ∧ (s.loop.isInLoopThread t = true → s.channel = none)
  | .restart _ => s.loop.canCall s.loop.threadId = true →
      s.handedOver = true ∧ s.channel = none
  | .timer k _ => s.loop.canLoop .handling = true → k < s.timers.length →
      n = 0 ∧ s.channel = none
  | _ => True

theorem Orderly.afterHandover {n : Nat} {a : ConnectorAct U}
    (h : Orderly n s a) :
    RestartsAfterHandover s a := by
  cases a with
  | restart errno => exact fun hc => (h hc).1
  | _ => trivial

section OneAttempt

variable [DecidableEq U] {q : List (ConnectorFunctor U)} {n : Nat}

/-- At most one thing may still run `startInLoop`, `n` timers that are
left alone aside, and `resetChannel` comes before it. -/
structure StartInv (n : Nat) (s : Connector U)
    (q : List (ConnectorFunctor U)) : Prop where
  old : n ≤ s.timers.length
  one : s.attempting + q.count .startInLoop + s.timers.length ≤ n + 1
  connected : s.state = .kConnected →
    q.count .startInLoop = 0 ∧ s.timers.length = n
  order : s.channel ≠ none → AtEach (fun pre f _ =>
    f = .startInLoop → .resetChannel ∈ pre) q

/-- When no `startInLoop` is due, only the timers and the state count. -/
theorem startInv_of_none (hq : q.count .startInLoop = 0)
    (hold : n ≤ s.timers.length) (hone : s.attempting + s.timers.length ≤ n + 1)
    (hconn : s.state = .kConnected → s.timers.length = n) : StartInv n s q where
  old := hold
  one := by omega
  connected := fun hst => ⟨hq, hconn hst⟩
  order := by
    intro _ pre f post hl hf
    have hmem : .startInLoop ∈ q := by
      rw [hl, hf]
      simp
    exact absurd hmem (List.count_eq_zero.1 hq)

theorem startInv_begins (hq : q.count .startInLoop = 0)
    (ht : s.timers.length = n) (hb : Begins s s') : StartInv n s' q := by
  obtain ⟨hold, hone⟩ := hb.timers
  exact startInv_of_none hq (by omega) (by omega)
    (fun hst => absurd hst hb.state_ne)

/-- An attempt under way is the only one, and when it ends at most a
timer takes its place. -/
theorem StartInv.attempt (h : StartInv n s q) (hst : s.state = .kConnecting) :
    q.count .startInLoop = 0 ∧ s.timers.length = n := by
  have hone := h.one
  have hold := h.old
  rw [attempting_one hst] at hone
  omega

theorem startInv_ends {o : Option Nat} (h : StartInv n s q)
    (he : Ends s s' o) : StartInv n s' (q ++ [.resetChannel]) := by
  obtain ⟨hq, ht⟩ := h.attempt he.state
  obtain ⟨h₁, h₂, hst, hconn⟩ := he.timers
  refine startInv_of_none ?_ (by omega) ?_ (fun hst' => by rw [hconn hst', ht])
  · rw [List.count_append, hq]
    rfl
  · rw [attempting_zero hst]
    omega

theorem StartInv.congr (h : StartInv n s q) (ht : s'.timers = s.timers)
    (hst : s'.state = s.state) (hch : s'.channel = s.channel) :
    StartInv n s' q where
  old := ht ▸ h.old
  one := by
    have hat : s'.attempting = s.attempting := by
      unfold attempting
      rw [hst]
    rw [ht, hat]
    exact h.one
  connected := by
    rw [ht, hst]
    exact h.connected
  order := by
    rw [hch]
    exact h.order

/-- Another functor is submitted. -/
theorem StartInv.push {f : ConnectorFunctor U} (h : StartInv n s q)
    (hf : f ≠ .startInLoop) : StartInv n s (q ++ [f]) := by
  have hq : (q ++ [f]).count .startInLoop = q.count .startInLoop := by
    rw [List.count_append, List.count_singleton, if_neg (by simpa using hf),
      Nat.add_zero]
  refine ⟨h.old, by rw [hq]; exact h.one, by rw [hq]; exact h.connected, ?_⟩
  intro hch
  rw [atEach_snoc]
  exact ⟨h.order hch, fun hf' => absurd hf' hf⟩

/-- A functor other than the two that matter is called. -/
theorem StartInv.pop {f : ConnectorFunctor U} (h : StartInv n s (f :: q))
    (hf : f ≠ .startInLoop) (hr : f ≠ .resetChannel) : StartInv n s q := by
  have hq : (f :: q).count .startInLoop = q.count .startInLoop :=
    List.count_cons_of_ne hf
  refine ⟨h.old, by rw [← hq]; exact h.one, by rw [← hq]; exact h.connected, ?_⟩
  intro hch
  refine (atEach_cons.1 (h.order hch)).2.imp fun pre x _ hx hstart => ?_
  rcases List.mem_cons.1 (hx hstart) with heq | hmem
  · exact absurd heq.symm hr
  · exact hmem

theorem StartInv.popReset (h : StartInv n s (.resetChannel :: q)) :
    StartInv n s.resetChannel q where
  old := h.old
  one := by
    have hone := h.one
    rw [List.count_cons_of_ne (by simp)] at hone
    exact hone
  connected := by
    have hconn := h.connected
    rw [List.count_cons_of_ne (by simp)] at hconn
    exact hconn
  order := fun hch => absurd rfl hch

/-- Calling the `startInLoop` that is due: it was the only one, and
`channel_` is reset. -/
theorem StartInv.popStart (h : StartInv n s (.startInLoop :: q)) :
    q.count .startInLoop = 0 ∧ s.timers.length = n
      ∧ s.state = .kDisconnected ∧ s.channel = none := by
  have hone := h.one
  have hold := h.old
  rw [List.count_cons_self] at hone
  refine ⟨by omega, by omega, ?_, ?_⟩
  · cases hst : s.state with
    | kDisconnected => rfl
    | kConnecting =>
        rw [attempting_one hst] at hone
        omega
    | kConnected =>
        have := (h.connected hst).1
        rw [List.count_cons_self] at this
        omega
  · by_contra hch
    have := (atEach_cons.1 (h.order hch)).1 rfl
    cases this

/-- A timer that fires was the only thing left to run `startInLoop`. -/
theorem StartInv.fires (h : StartInv 0 s q) {k : Nat}
    (hk : k < s.timers.length) :
    q.count .startInLoop = 0 ∧ (s.timers.eraseIdx k).length = 0
      ∧ s.state = .kDisconnected := by
  have hone := h.one
  refine ⟨by omega, ?_, ?_⟩
  · rw [List.length_eraseIdx_of_lt hk]
    omega
  · cases hst : s.state with
    | kDisconnected => rfl
    | kConnecting =>
        rw [attempting_one hst] at hone
        omega
    | kConnected =>
        have := (h.connected hst).2
        omega

/-- The invariant of orderly runs. -/
structure OrderInv (n : Nat) (s : Connector U) : Prop where
  sock : SockInv s
  start : StartInv n s s.due

theorem orderInv_create (threadId : Nat) :
    OrderInv 0 (create threadId : Connector U) where
  sock := sockInv_create threadId
  start := startInv_of_none rfl (Nat.zero_le _) (Nat.zero_le _) (fun h => by cases h)

theorem startInv_moves {a : ConnectorAct U} (h : OrderInv n s)
    (hC : Orderly n s a) (hm : Moves s a s') : StartInv n s' s'.due := by
  have hstart := h.start
  cases hm with
  | stay => exact hstart
  | start t errno hc ht hb =>
      obtain ⟨⟨hst, hdue, htimers⟩, -⟩ := hC hc
      rw [hb.due]
      exact startInv_begins (s := s.started) (List.count_eq_zero.2 hdue) htimers hb
  | startOther t errno hc ht =>
      obtain ⟨⟨hst, hdue, htimers⟩, -⟩ := hC hc
      rw [due_startOther]
      refine ⟨hstart.old, ?_, fun hst' => ?_, fun hch => ?_⟩
      · rw [List.count_append, List.count_eq_zero.2 hdue, List.count_singleton_self]
        have hat : s.attempting = 0 := attempting_zero (by simp [hst])
        show s.attempting + _ + s.timers.length ≤ _
        omega
      · rw [show s.state = .kConnected from hst'] at hst
        cases hst
      · -- the old channel is reset before the functor is called
        have hmem : .resetChannel ∈ s.due := by
          cases h.sock.core.phase with
          | reset hch' => exact absurd hch' hch
          | watching _ _ _ hst' =>
              rw [hst] at hst'
              cases hst'
          | detached _ _ _ _ hr =>
              exact List.count_pos_iff.1 (by omega)
        rw [atEach_snoc]
        exact ⟨hstart.order hch, fun _ => hmem⟩
  | stop t =>
      rw [due_stop]
      exact (hstart.push (by simp)).congr rfl rfl rfl
  | restart errno hc hb =>
      obtain ⟨hq, ht⟩ := hstart.connected (h.sock.last (hC hc).1)
      rw [hb.due]
      exact startInv_begins (s := s.restarted) hq ht hb
  | event revents soError selfConnect hpc he hok =>
      rw [he.due]
      exact startInv_ends hstart he
  | timer k errno hpc hk hb =>
      obtain ⟨rfl, -⟩ := hC hpc hk
      obtain ⟨hq, ht, -⟩ := hstart.fires hk
      rw [hb.due]
      exact startInv_begins (s := { s with timers := s.timers.eraseIdx k }) hq ht hb
  | callStart errno hpc hf hb =>
      obtain ⟨hq, ht, -, -⟩ := (due_called hf ▸ hstart).popStart
      rw [hb.due]
      exact startInv_begins (s := s.called) hq ht hb
  | callStop errno hpc hf hst =>
      exact ((due_called hf ▸ hstart).pop (by simp) (by simp)).congr rfl rfl rfl
  | callStopEnds errno channel hpc hf hst hch =>
      have hpop : StartInv n { s.called with stopsRun := s.stopsRun + 1 }
          s.called.due :=
        ((due_called hf ▸ hstart).pop (by simp) (by simp)).congr rfl rfl rfl
      rw [due_retry, due_detached]
      exact startInv_ends hpop (.retry channel hst hch)
  | callReset errno hpc hf =>
      exact StartInv.popReset (s := s.called)
        ((due_called hf ▸ hstart).congr rfl rfl rfl)
  | callOther errno f hpc hf =>
      exact ((due_called hf ▸ hstart).pop (by simp) (by simp)).congr rfl rfl rfl
  | loop a ha hw =>
      have hpush := due_loop (P := StartInv n s) h.sock.queue ha hw
        (fun _ _ hq => hq.push (by simp)) hstart
      exact hpush.congr rfl rfl rfl

theorem orderInv_moves {a : ConnectorAct U} (h : OrderInv n s)
    (hC : Orderly n s a) (hm : Moves s a s') : OrderInv n s' :=
  ⟨sockInv_moves h.sock hC.afterHandover hm, startInv_moves h hC hm⟩

/-- In an orderly step `startInLoop` finds its assertion true and
`channel_` reset. -/
theorem runsStart_ready {a : ConnectorAct U} {s₀ : Connector U}
    (h : OrderInv n s) (hC : Orderly n s a) (hr : RunsStart s a s₀) :
    s₀.state = .kDisconnected ∧ s₀.channel = none := by
  cases hr with
  | start t errno hc ht => exact ⟨(hC hc).1.1, (hC hc).2 ht⟩
  | restart errno hc => exact ⟨rfl, (hC hc).2⟩
  | timer k errno hpc hk =>
      obtain ⟨rfl, hch⟩ := hC hpc hk
      exact ⟨(h.start.fires hk).2.2, hch⟩
  | call errno hf => exact (due_called hf ▸ h.start).popStart.2.2

theorem orderly_error {a : ConnectorAct U} {e : ConnectorAssert}
    (h : OrderInv n s) (hC : Orderly n s a) (herr : s.step a = .error e) :
    ∃ w, e = .worker w := by
  rcases step_error h.sock herr with hw | ⟨s₀, errno, hr, hstart⟩
  · exact hw
  · obtain ⟨hst, hch⟩ := runsStart_ready h hC hr
    obtain ⟨s₁, hok⟩ := startInLoop_ok errno hst hch
    rw [hok] at hstart
    cases hstart

/-- In an orderly run neither assertion of an attempt fails. -/
theorem orderly_run {acts : List (ConnectorAct U)} (h : OrderInv n s)
    (hC : Along step (Orderly n) s acts) :
    run step s acts ≠ .error .startInLoop
      ∧ run step s acts ≠ .error .connecting := by
  have herr : ∀ e, run step s acts = .error e → ∃ w, e = .worker w := by
    intro e hrun
    exact run_error (Q := fun e => ∃ w, e = .worker w)
      (fun _ _ _ h hC hok => orderInv_moves h hC (step_moves hok))
      (fun _ _ _ h hC herr => orderly_error h hC herr) h hC hrun
  constructor
  · intro hrun
    obtain ⟨w, hw⟩ := herr _ hrun
    cases hw
  · intro hrun
    obtain ⟨w, hw⟩ := herr _ hrun
    cases hw

/-- As long as a connector is used in order, neither assertion fails. -/
theorem one_attempt_in_flight (threadId : Nat) (acts : List (ConnectorAct U))
    (hC : Along step (Orderly 0) (create threadId) acts) :
    run step (create threadId) acts ≠ .error .startInLoop
      ∧ run step (create threadId) acts ≠ .error .connecting :=
  orderly_run (orderInv_create threadId) hC

instance (n : Nat) (s : Connector U) : Decidable (AtRest n s) :=
  inferInstanceAs (Decidable (_ ∧ _ ∧ _))

instance (n : Nat) (s : Connector U) :
    (a : ConnectorAct U) → Decidable (Orderly n s a)
  | .start _ _ => inferInstanceAs (Decidable (_ → _ ∧ (_ → _)))
  | .restart _ => inferInstanceAs (Decidable (_ → _ ∧ _))
  | .timer _ _ => inferInstanceAs (Decidable (_ → _ → _ ∧ _))
  | .stop _ => .isTrue trivial
  | .handleEvent _ _ _ => .isTrue trivial
  | .call _ => .isTrue trivial
  | .loop _ => .isTrue trivial

end OneAttempt

/-- The three attempts of `threeSockets` are made in order. -/
theorem one_attempt_three :
    run step (create 0 : Connector Nat) threeSockets ≠ .error .startInLoop
      ∧ run step (create 0 : Connector Nat) threeSockets
        ≠ .error .connecting :=
  one_attempt_in_flight 0 threeSockets (along_of_check (by decide +kernel))

/-- `stop` leaves the timer of the refused attempt, which fires into the
attempt of the next `start`; and an attempt that fails after `stop` leaves
a channel that the next `start` finds. -/
theorem two_attempts_in_flight :
    run step (create 0 : Connector Nat)
        [.start 0 .ECONNREFUSED, .stop 0, .start 0 .EINPROGRESS, .loop .Loop,
          .loop .test, .loop .pollReturn, .timer 0 .EINPROGRESS]
      = .error .startInLoop
    ∧ run step (create 0 : Connector Nat)
        [.start 0 .EINPROGRESS, .loop .Loop, .loop .test, .loop .pollReturn,
          .stop 0, .handleEvent POLLERR 111 false, .start 0 .EINPROGRESS]
      = .error .connecting :=
  ⟨rfl, rfl⟩

-- ============================================================= stopping

/-- No event finds the connection up while `connect_` is down, and
`restart` comes only after a handover. -/
def SucceedsInTime (s : Connector U) : ConnectorAct U → Prop
  | .handleEvent revents soError selfConnect =>
      s.loop.canLoop .handling = true → s.watched.isSome = true →
        connectsOn revents soError selfConnect = true → s.connect_ = true
  | .restart _ => s.loop.canCall s.loop.threadId = true → s.handedOver = true
  | _ => True

theorem SucceedsInTime.afterHandover {a : ConnectorAct U}
    (h : SucceedsInTime s a) : RestartsAfterHandover s a := by
  cases a with
  | restart errno => exact h
  | _ => trivial

instance (s : Connector U) :
    (a : ConnectorAct U) → Decidable (SucceedsInTime s a)
  | .restart _ => inferInstanceAs (Decidable (_ → _))
  | .handleEvent _ _ _ => inferInstanceAs (Decidable (_ → _ → _ → _))
  | .start _ _ => .isTrue trivial
  | .stop _ => .isTrue trivial
  | .timer _ _ => .isTrue trivial
  | .call _ => .isTrue trivial
  | .loop _ => .isTrue trivial

/-- A `startInLoop` that is due stays so when another functor is
called. -/
theorem due_start_called {f : ConnectorFunctor U}
    {rest : List (ConnectorFunctor U)}
    (hf : s.loop.queue.functors = f :: rest) (hne : f ≠ .startInLoop)
    (h : .startInLoop ∈ s.due) : .startInLoop ∈ s.called.due := by
  rw [due_called hf] at h
  rcases List.mem_cons.1 h with heq | hmem
  · exact absurd heq.symm hne
  · exact hmem

/-- The action neither starts nor stops, and is not a timer's. -/
def passive : ConnectorAct U → Bool
  | .handleEvent _ _ _ => true
  | .call _ => true
  | .loop _ => true
  | _ => false

/-- From a connector at rest, a `start` and what follows it passively is
orderly: the timers that were set before do not fire. -/
theorem along_start {t : Nat} {errno : ConnectErrno}
    {acts : List (ConnectorAct U)} (hst : s.state = .kDisconnected)
    (hdue : .startInLoop ∉ s.due)
    (hch : s.loop.isInLoopThread t = true → s.channel = none)
    (ha : ∀ a ∈ acts, passive a = true) :
    Along step (Orderly s.timers.length) s (.start t errno :: acts) := by
  refine ⟨fun _ => ⟨⟨hst, hdue, rfl⟩, hch⟩, fun s' _ => ?_⟩
  refine along_of_mem acts s' fun a hmem s' => ?_
  have hp := ha a hmem
  cases a with
  | start => cases hp
  | restart => cases hp
  | timer => cases hp
  | _ => trivial

section Stopping

variable [DecidableEq U] {q : List (ConnectorFunctor U)}

/-- The calls of `stop`, counted with the functors that are due. -/
structure StopCore (s : Connector U) (q : List (ConnectorFunctor U)) : Prop where
  before : s.stopsBefore ≤ s.stops
  count : s.stopsRun + q.count .stopInLoop = s.stops
  /-- a `stop` since the last `start` has put the flag down -/
  flag : s.stopsBefore < s.stops → s.connect_ = false
  /-- and its `stopInLoop` has ended the attempt -/
  ended : s.stopsBefore < s.stopsRun → s.state ≠ .kConnecting
  /-- a `startInLoop` comes before the `stopInLoop` of a later `stop` -/
  order : AtEach (fun pre f _ => f = .startInLoop →
    s.stopsRun + pre.count .stopInLoop ≤ s.stopsBefore) q

/-- No other field of the connector matters, and an attempt may end. -/
theorem StopCore.congr (h : StopCore s q) (hb : s'.stopsBefore = s.stopsBefore)
    (hs : s'.stops = s.stops) (hr : s'.stopsRun = s.stopsRun)
    (hc : s'.connect_ = s.connect_)
    (hst : s'.state = .kConnecting → s.state = .kConnecting) :
    StopCore s' q where
  before := by
    rw [hb, hs]
    exact h.before
  count := by
    rw [hr, hs]
    exact h.count
  flag := by
    rw [hb, hs, hc]
    exact h.flag
  ended := by
    rw [hb, hr]
    exact fun hlt hst' => h.ended hlt (hst hst')
  order := by
    rw [hb, hr]
    exact h.order

/-- A functor other than the two that matter is submitted. -/
theorem StopCore.push {f : ConnectorFunctor U} (h : StopCore s q)
    (hf : f ≠ .startInLoop) (hf' : f ≠ .stopInLoop) :
    StopCore s (q ++ [f]) := by
  refine ⟨h.before, ?_, h.flag, h.ended, ?_⟩
  · rw [List.count_append, List.count_singleton, if_neg (by simpa using hf'),
      Nat.add_zero]
    exact h.count
  · rw [atEach_snoc]
    exact ⟨h.order, fun heq => absurd heq hf⟩

/-- A functor other than `stopInLoop` is called. -/
theorem StopCore.pop {f : ConnectorFunctor U} (h : StopCore s (f :: q))
    (hf : f ≠ .stopInLoop) : StopCore s q := by
  refine ⟨h.before, ?_, h.flag, h.ended, ?_⟩
  · have hcount := h.count
    rw [List.count_cons_of_ne hf] at hcount
    exact hcount
  · refine (atEach_cons.1 h.order).2.imp fun pre x _ hx hstart => ?_
    have := hx hstart
    rw [List.count_cons_of_ne hf] at this
    exact this

/-- `stopInLoop` is called, and leaves no attempt. -/
theorem StopCore.popStop (h : StopCore s (.stopInLoop :: q))
    (hb : s'.stopsBefore = s.stopsBefore) (hs : s'.stops = s.stops)
    (hr : s'.stopsRun = s.stopsRun + 1) (hc : s'.connect_ = s.connect_)
    (hst : s'.state ≠ .kConnecting) : StopCore s' q := by
  have hcount := h.count
  rw [List.count_cons_self] at hcount
  refine ⟨?_, ?_, ?_, fun _ => hst, ?_⟩
  · rw [hb, hs]
    exact h.before
  · rw [hr, hs]
    omega
  · rw [hb, hs, hc]
    exact h.flag
  · refine (atEach_cons.1 h.order).2.imp fun pre x _ hx hstart => ?_
    have := hx hstart
    rw [List.count_cons_self] at this
    rw [hr, hb]
    omega

theorem stopCore_stop (h : StopCore s q) (t : Nat) :
    StopCore (s.stop t) (q ++ [.stopInLoop]) := by
  have hbefore := h.before
  have hcount := h.count
  refine ⟨?_, ?_, fun _ => rfl, h.ended, ?_⟩
  · show s.stopsBefore ≤ s.stops + 1
    omega
  · rw [List.count_append, List.count_singleton_self]
    show s.stopsRun + _ = s.stops + 1
    omega
  · rw [atEach_snoc]
    exact ⟨h.order, fun heq => by cases heq⟩

/-- `start` and `restart` begin the count anew. -/
theorem stopCore_started (h : StopCore s q) (hb : s'.stopsBefore = s.stops)
    (hs : s'.stops = s.stops) (hr : s'.stopsRun = s.stopsRun) :
    StopCore s' q := by
  have hbefore := h.before
  have hcount := h.count
  refine ⟨by omega, by omega, fun hlt => by omega, fun hlt => by omega, ?_⟩
  refine h.order.imp fun pre x _ hx hstart => ?_
  have := hx hstart
  omega

theorem stopCore_startOther (h : StopCore s q) (t : Nat) :
    StopCore { s.started with loop := s.loop.submit t .startInLoop }
      (q ++ [.startInLoop]) := by
  have hcore : StopCore { s.started with loop := s.loop.submit t .startInLoop } q :=
    stopCore_started h rfl rfl rfl
  refine ⟨hcore.before, ?_, hcore.flag, hcore.ended, ?_⟩
  · rw [List.count_append]
    exact hcore.count
  · rw [atEach_snoc]
    refine ⟨hcore.order, fun _ => ?_⟩
    show s.stopsRun + q.count .stopInLoop ≤ s.stops
    exact h.count.le

/-- An attempt begins only with the flag up. -/
theorem stopCore_begins (h : StopCore s q) (hb : Begins s s') :
    StopCore s' q := by
  cases hb with
  | stopped => exact h
  | pending hst hc =>
      have hbefore : ¬ s.stopsBefore < s.stops := by
        intro hlt
        rw [h.flag hlt] at hc
        cases hc
      have hcount := h.count
      refine ⟨h.before, h.count, h.flag, fun hlt => ?_, h.order⟩
      have : s.stopsBefore < s.stopsRun := hlt
      omega
  | retry hst hc =>
      refine h.congr ?_ ?_ ?_ ?_ (fun h' => by simp at h')
      all_goals
        rw [retry_eq]
        rfl
  | failed hst hc => exact h.congr rfl rfl rfl rfl id

theorem stopCore_ends {o : Option Nat} (h : StopCore s q) (he : Ends s s' o) :
    StopCore s' (q ++ [.resetChannel]) := by
  have hpush := h.push (f := .resetChannel) (by simp) (by simp)
  cases he with
  | retry channel hst hch =>
      refine hpush.congr ?_ ?_ ?_ ?_ (fun _ => hst)
      all_goals
        rw [retry_eq]
        rfl
  | handed channel hst hch => exact hpush.congr rfl rfl rfl rfl (fun _ => hst)
  | late channel hst hch => exact hpush.congr rfl rfl rfl rfl (fun _ => hst)

/-- The invariant of the runs in which nothing succeeds too late. -/
structure StopInv (s : Connector U) : Prop where
  sock : SockInv s
  core : StopCore s s.due
  connected : s.state = .kConnected →
    s.handedSince = true ∨ .startInLoop ∈ s.due

theorem stopInv_create (threadId : Nat) :
    StopInv (create threadId : Connector U) where
  sock := sockInv_create threadId
  core := ⟨le_rfl, rfl, fun h => absurd h (lt_irrefl 0),
    fun h => absurd h (lt_irrefl 0), atEach_nil⟩
  connected := fun h => by cases h

theorem stopCore_moves {a : ConnectorAct U} (hq : s.loop.QueueInv)
    (h : StopCore s s.due) (hm : Moves s a s') : StopCore s' s'.due := by
  cases hm with
  | stay => exact h
  | start t errno hc ht hb =>
      rw [hb.due]
      exact stopCore_begins (s := s.started) (stopCore_started h rfl rfl rfl) hb
  | startOther t errno hc ht =>
      rw [due_startOther]
      exact stopCore_startOther h t
  | stop t =>
      rw [due_stop]
      exact stopCore_stop h t
  | restart errno hc hb =>
      rw [hb.due]
      exact stopCore_begins (s := s.restarted) (stopCore_started h rfl rfl rfl) hb
  | event revents soError selfConnect hpc he hok =>
      rw [he.due]
      exact stopCore_ends h he
  | timer k errno hpc hk hb =>
      rw [hb.due]
      exact stopCore_begins (s := { s with timers := s.timers.eraseIdx k })
        (h.congr rfl rfl rfl rfl id) hb
  | callStart errno hpc hf hb =>
      rw [hb.due]
      exact stopCore_begins (s := s.called)
        (((due_called hf ▸ h).pop (by simp)).congr rfl rfl rfl rfl id) hb
  | callStop errno hpc hf hst =>
      exact (due_called hf ▸ h).popStop rfl rfl rfl rfl hst
  | callStopEnds errno channel hpc hf hst hch =>
      -- the attempt is still there until the functor ends it
      have hpop : StopCore (({ s.called with
          stopsRun := s.stopsRun + 1 }.detached channel).retry channel.fd)
          s.called.due := by
        refine (due_called hf ▸ h).popStop ?_ ?_ ?_ ?_ (by simp)
        all_goals
          rw [retry_eq]
          rfl
      rw [due_retry, due_detached]
      exact hpop.push (by simp) (by simp)
  | callReset errno hpc hf =>
      exact ((due_called hf ▸ h).pop (by simp)).congr rfl rfl rfl rfl id
  | callOther errno f hpc hf =>
      exact ((due_called hf ▸ h).pop (by simp)).congr rfl rfl rfl rfl id
  | loop a ha hw =>
      have hpush := due_loop (P := StopCore s) hq ha hw
        (fun _ _ hc => hc.push (by simp) (by simp)) h
      exact hpush.congr rfl rfl rfl rfl id

/-- A connector that is connected has handed the socket over, or has a
`start` ahead that will fail its assertion. -/
theorem connected_moves {a : ConnectorAct U} (h : StopInv s)
    (hC : SucceedsInTime s a) (hm : Moves s a s') :
    s'.state = .kConnected →
      s'.handedSince = true ∨ .startInLoop ∈ s'.due := by
  intro hst'
  cases hm with
  | stay => exact h.connected hst'
  | start t errno hc ht hb => exact absurd hst' hb.state_ne
  | startOther t errno hc ht =>
      rw [due_startOther]
      exact .inr (by simp)
  | stop t =>
      rw [due_stop]
      exact (h.connected hst').imp_right (List.mem_append_left _)
  | restart errno hc hb => exact absurd hst' hb.state_ne
  | event revents soError selfConnect hpc he hok =>
      cases he with
      | retry channel => simp at hst'
      | handed => exact .inl rfl
      | late channel hst hch hc =>
          obtain ⟨channel', hch', hev, -⟩ := h.sock.core.phase.watching_inv hst
          have hw : s.watched.isSome = true := by
            rw [watched_some hch' hev]
            rfl
          rw [hC hpc hw (hok hst')] at hc
          cases hc
  | timer k errno hpc hk hb => exact absurd hst' hb.state_ne
  | callStart errno hpc hf hb => exact absurd hst' hb.state_ne
  | callStop errno hpc hf hst =>
      exact (h.connected hst').imp_right (due_start_called hf (by simp))
  | callStopEnds errno channel hpc hf hst hch => simp at hst'
  | callReset errno hpc hf =>
      exact (h.connected hst').imp_right (due_start_called hf (by simp))
  | callOther errno f hpc hf =>
      exact (h.connected hst').imp_right (due_start_called hf (by simp))
  | loop a ha hw =>
      have hmem := due_loop (P := fun q => .startInLoop ∈ q) h.sock.queue ha hw
        (fun _ _ => List.mem_append_left _)
      exact (h.connected hst').imp_right hmem

theorem stopInv_moves {a : ConnectorAct U} (h : StopInv s)
    (hC : SucceedsInTime s a) (hm : Moves s a s') : StopInv s' :=
  ⟨sockInv_moves h.sock hC.afterHandover hm,
    stopCore_moves h.sock.queue h.core hm, connected_moves h hC hm⟩

-- ======================================================== a later start

/-- With the flag up, a `startInLoop` that is due turns into a socket. -/
theorem sockets_moves {a : ConnectorAct U} (hq : s.loop.QueueInv)
    (hc : s.connect_ = true) (ha : passive a = true) (hm : Moves s a s') :
    s'.connect_ = true
      ∧ s'.sockets.length + s'.due.count .startInLoop
        = s.sockets.length + s.due.count .startInLoop := by
  have hpop : ∀ {f : ConnectorFunctor U} {rest : List (ConnectorFunctor U)},
      s.loop.queue.functors = f :: rest → f ≠ .startInLoop →
      s.due.count .startInLoop = s.called.due.count .startInLoop := by
    intro f rest hf hne
    rw [due_called hf, List.count_cons_of_ne hne]
  cases hm with
  | stay => exact ⟨hc, rfl⟩
  | start => cases ha
  | startOther => cases ha
  | stop => cases ha
  | restart => cases ha
  | timer => cases ha
  | event revents soError selfConnect hpc he hok =>
      obtain ⟨hlen, hc'⟩ := he.length
      refine ⟨hc'.trans hc, ?_⟩
      rw [hlen, he.due, List.count_append]
      rfl
  | callStart errno hpc hf hb =>
      obtain ⟨hlen, hc'⟩ := hb.length hc
      refine ⟨hc', ?_⟩
      rw [hlen, hb.due, due_called hf, List.count_cons_self]
      show s.sockets.length + 1 + _ = _
      omega
  | callStop errno hpc hf hst =>
      refine ⟨hc, ?_⟩
      rw [hpop hf (by simp)]
      rfl
  | callStopEnds errno channel hpc hf hst hch =>
      obtain ⟨hlen, hc'⟩ := (Ends.retry (s := { s.called with
        stopsRun := s.stopsRun + 1 }) channel hst hch).length
      refine ⟨hc'.trans hc, ?_⟩
      rw [hlen, due_retry, due_detached, List.count_append, hpop hf (by simp)]
      rfl
  | callReset errno hpc hf =>
      refine ⟨hc, ?_⟩
      rw [hpop hf (by simp)]
      rfl
  | callOther errno f hpc hf =>
      refine ⟨hc, ?_⟩
      rw [hpop hf (by simp)]
      rfl
  | loop a ha' hw =>
      have hcount := due_loop
        (P := fun q => q.count .startInLoop = s.due.count .startInLoop)
        hq ha' hw (fun q k h => by rw [List.count_append, h]; rfl) rfl
      refine ⟨hc, ?_⟩
      rw [hcount]

/-- The connector is at rest, and a later `start` works: nothing is held;
whatever comes after the `start` but another start, a stop or a timer,
the assertions hold, and when its `startInLoop` has run there is one more
socket. On the loop thread it waits for `channel_` to be reset. -/
structure Restartable (s : Connector U) : Prop where
  state : s.state = .kDisconnected
  unwatched : s.watched = none
  unheld : ∀ (sockfd : Nat) (k : ConnectorSocket),
    s.sockets[sockfd]? = some k → k.closes + k.handed = 1
  safe : ∀ t errno acts, s.loop.canCall t = true →
    (s.loop.isInLoopThread t = true → s.channel = none) →
    (∀ a ∈ acts, passive a = true) →
      run step s (.start t errno :: acts) ≠ .error .startInLoop
      ∧ run step s (.start t errno :: acts) ≠ .error .connecting
  begins : ∀ t errno acts, s.loop.canCall t = true →
    (∀ a ∈ acts, passive a = true) →
    ∀ s', run step s (.start t errno :: acts) = .ok s' →
      .startInLoop ∉ s'.due → s'.sockets.length = s.sockets.length + 1

/-- A `stop` whose `stopInLoop` has run leaves no `startInLoop` due. -/
theorem StopCore.no_start (h : StopCore s q)
    (hstop : s.stopsBefore < s.stopsRun) : .startInLoop ∉ q := by
  intro hmem
  obtain ⟨pre, post, hq⟩ := List.append_of_mem hmem
  have := h.order pre .startInLoop post hq rfl
  omega

theorem StopInv.disconnected (h : StopInv s)
    (hstop : s.stopsBefore < s.stopsRun) (hhand : s.handedSince = false) :
    s.state = .kDisconnected := by
  cases hst : s.state with
  | kDisconnected => rfl
  | kConnecting => exact absurd hst (h.core.ended hstop)
  | kConnected =>
      rcases h.connected hst with hh | hmem
      · rw [hhand] at hh
        cases hh
      · exact absurd hmem (h.core.no_start hstop)

theorem sockets_start {t : Nat} {errno : ConnectErrno}
    (hc : s.loop.canCall t = true) (h : s.step (.start t errno) = .ok s') :
    s'.connect_ = true
      ∧ s'.sockets.length + s'.due.count .startInLoop
        = s.sockets.length + s.due.count .startInLoop + 1 := by
  simp only [step, if_pos hc, Connector.start] at h
  split at h
  · have hb := startInLoop_begins h
    obtain ⟨hlen, hc'⟩ := hb.length rfl
    refine ⟨hc', ?_⟩
    rw [hlen, hb.due]
    exact Nat.add_right_comm _ _ _
  · cases h
    refine ⟨rfl, ?_⟩
    have hdue : { s.started with loop := s.started.loop.submit t .startInLoop }.due
        = s.due ++ [.startInLoop] := due_startOther s t
    rw [hdue, List.count_append, List.count_singleton_self]
    exact (Nat.add_assoc _ _ _).symm

theorem restartable_of_rest (h : SockInv s) (hst : s.state = .kDisconnected)
    (hdue : .startInLoop ∉ s.due) : Restartable s := by
  have hne : s.state ≠ .kConnecting := by simp [hst]
  have hw := h.core.phase.watched_none hne
  have hinit : OrderInv s.timers.length s := by
    refine ⟨h, startInv_of_none (List.count_eq_zero.2 hdue) le_rfl ?_ (fun _ => rfl)⟩
    rw [attempting_zero hne]
    omega
  refine ⟨hst, hw, fun sockfd k hk => ?_, fun t errno acts hc hch ha => ?_,
    fun t errno acts hc ha s' hrun hnone => ?_⟩
  · have := h.core.fates sockfd k hk
    rw [hw] at this
    simpa using this
  · exact orderly_run hinit (along_start hst hdue hch ha)
  · obtain ⟨s₁, hstart, hrest⟩ := run_cons_inv hrun
    obtain ⟨hc₁, hlen₁⟩ := sockets_start hc hstart
    have hq₁ : s₁.loop.QueueInv := queueInv_moves h.queue (step_moves hstart)
    obtain ⟨-, -, hlen⟩ := run_inv (C := fun _ a => passive a = true)
      (I := fun s₂ => s₂.loop.QueueInv ∧ s₂.connect_ = true
        ∧ s₂.sockets.length + s₂.due.count .startInLoop
          = s₁.sockets.length + s₁.due.count .startInLoop)
      (fun s₂ a s₃ h₂ hp hok => by
        have hm := step_moves hok
        obtain ⟨hc₃, hlen₃⟩ := sockets_moves h₂.1 h₂.2.1 hp hm
        exact ⟨queueInv_moves h₂.1 hm, hc₃, hlen₃.trans h₂.2.2⟩)
      ⟨hq₁, hc₁, rfl⟩ (along_of_mem acts s₁ fun a hmem _ => ha a hmem) hrest
    rw [List.count_eq_zero.2 hnone, hlen₁, List.count_eq_zero.2 hdue] at hlen
    exact hlen

/-- After a `stop` whose `stopInLoop` has run, with no `start` or
`restart` since the `stop` and nothing handed over since the last of
them, the connector can be started again, unless a connection came up
between the two. -/
theorem restartable_run (threadId : Nat) (acts : List (ConnectorAct U))
    (hC : Along step SucceedsInTime (create threadId) acts)
    (s : Connector U) (hrun : run step (create threadId) acts = .ok s)
    (hstop : s.stopsBefore < s.stopsRun) (hhand : s.handedSince = false) :
    Restartable s := by
  have h : StopInv s := run_inv (I := StopInv)
    (fun _ _ _ h hC hok => stopInv_moves h hC (step_moves hok))
    (stopInv_create threadId) hC hrun
  exact restartable_of_rest h.sock (h.disconnected hstop hhand)
    (h.core.no_start hstop)

end Stopping

/-- An attempt, a `stop` while it is under way, an event, and the
functors that are then due. -/
def stopDuring (revents : BitVec 32) (soError : Nat) : List (ConnectorAct Nat) :=
  [.start 0 .EINPROGRESS, .loop .Loop, .loop .test, .loop .pollReturn, .stop 0,
    .handleEvent revents soError false, .loop .endHandling, .loop .swap,
    .call .success, .loop .ret, .call .success, .loop .ret]

theorem restartable_after_error :
    ∃ s : Connector Nat,
      run step (create 0) (stopDuring POLLERR 111) = .ok s ∧ Restartable s := by
  obtain ⟨s, hrun, hview⟩ := map_ok_inv
    (show (run step (create 0 : Connector Nat) (stopDuring POLLERR 111)).map
        (fun s => (s.stopsBefore, s.stopsRun, s.handedSince))
      = .ok (0, 1, false) by decide +kernel)
  have hbefore : s.stopsBefore = 0 := congrArg Prod.fst hview
  have hran : s.stopsRun = 1 := congrArg (fun p => p.2.1) hview
  have hhand : s.handedSince = false := congrArg (fun p => p.2.2) hview
  exact ⟨s, hrun, restartable_run 0 (stopDuring POLLERR 111)
    (along_of_check (by decide +kernel)) s hrun (by omega) hhand⟩

/-- The connection comes up after `stop`: the socket is closed, but
`state_` stays at `kConnected` and the next `start` fails. -/
theorem late_success_sticks :
    ∃ s : Connector Nat,
      run step (create 0) (stopDuring POLLOUT 0) = .ok s
      ∧ s.stopsBefore < s.stopsRun ∧ s.handedSince = false
      ∧ s.state = .kConnected ∧ s.sockets = [⟨1, 0⟩]
      ∧ run step (create 0 : Connector Nat)
          (stopDuring POLLOUT 0 ++ [.loop .endPending, .loop .test,
            .loop .pollReturn, .start 0 .EINPROGRESS])
        = .error .startInLoop
      ∧ ¬ Restartable s := by
  obtain ⟨s, hrun, hview⟩ := map_ok_inv
    (show (run step (create 0 : Connector Nat) (stopDuring POLLOUT 0)).map
        (fun s => (s.stopsBefore, s.stopsRun, s.handedSince, s.state, s.sockets))
      = .ok (0, 1, false, .kConnected, [⟨1, 0⟩]) by decide +kernel)
  have hbefore : s.stopsBefore = 0 := congrArg Prod.fst hview
  have hran : s.stopsRun = 1 := congrArg (fun p => p.2.1) hview
  have hst : s.state = .kConnected := congrArg (fun p => p.2.2.2.1) hview
  refine ⟨s, hrun, by omega, congrArg (fun p => p.2.2.1) hview, hst,
    congrArg (fun p => p.2.2.2.2) hview, rfl, fun h => ?_⟩
  rw [h.state] at hst
  cases hst

end Cobra.Connector
