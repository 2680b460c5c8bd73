/-
What a step of a connector can do.

A step does at most one of two things to an attempt: it begins one
(`Begins`, from `startInLoop`) or ends one (`Ends`, from an event of
`channel_` or from `stopInLoop`). `step_moves` says once which step does
which; everything else only moves the queue, the flag or the timers.
The results about connectors and their clients take a step apart with it
and never unfold the functions of the model.
-/
import Cobra.Connector
import Cobra.Proofs.Worker

namespace Cobra.Connector

open Machine

variable {U : Type} {s s' : Connector U}

-- ==================================================== what a step can do

/-- The attempt at the socket just created is under way. -/
def pending (s : Connector U) : Connector U :=
  { s.newSocket with
    state := .kConnecting
    channel := some (Channel.create s.sockets.length).enableWriting }

/-- `channel_` is out of the poller, its `resetChannel` submitted. -/
def detached (s : Connector U) (channel : Channel) : Connector U :=
  { s with channel := some channel.disableAll }.queueInLoop .resetChannel

/-- What `startInLoop` makes of a connector. -/
inductive Begins (s : Connector U) : Connector U → Prop
  | stopped (hst : s.state = .kDisconnected) (hc : s.connect_ = false) :
      Begins s s
  | pending (hst : s.state = .kDisconnected) (hc : s.connect_ = true)
      (hch : s.channel = none) : Begins s s.pending
  | retry (hst : s.state = .kDisconnected) (hc : s.connect_ = true) :
      Begins s (s.newSocket.retry s.sockets.length)
  | failed (hst : s.state = .kDisconnected) (hc : s.connect_ = true) :
      Begins s (s.newSocket.close s.sockets.length)

/-- What ends an attempt that is under way, and the socket it gives to
`new_conn_cb_`. -/
inductive Ends (s : Connector U) : Connector U → Option Nat → Prop
  | retry (channel : Channel) (hst : s.state = .kConnecting)
      (hch : s.channel = some channel) :
      Ends s ((s.detached channel).retry channel.fd) none
  | handed (channel : Channel) (hst : s.state = .kConnecting)
      (hch : s.channel = some channel) (hc : s.connect_ = true) :
      Ends s (((s.detached channel).setState .kConnected).newConnCb channel.fd)
        (some channel.fd)
  | late (channel : Channel) (hst : s.state = .kConnecting)
      (hch : s.channel = some channel) (hc : s.connect_ = false) :
      Ends s (((s.detached channel).setState .kConnected).close channel.fd)
        none

theorem connecting_inv {sockfd : Nat} (h : s.connecting sockfd = .ok s') :
    s.channel = none
      ∧ s' = { s with
        state := .kConnecting
        channel := some (Channel.create sockfd).enableWriting } := by
  obtain ⟨u, hreq, h⟩ := bind_ok_inv h
  cases h
  exact ⟨require_inv hreq, rfl⟩

theorem startInLoop_begins {errno : ConnectErrno}
    (h : s.startInLoop errno = .ok s') : Begins s s' := by
  obtain ⟨u, hreq, h⟩ := bind_ok_inv h
  have hst : s.state = .kDisconnected := require_inv hreq
  cases hc : s.connect_ with
  | false =>
      rw [hc] at h
      cases h
      exact .stopped hst hc
  | true =>
      rw [hc] at h
      change s.connect errno = .ok s' at h
      cases errno with
      | success | EINPROGRESS | EINTR | EISCONN =>
          obtain ⟨hch, rfl⟩ := connecting_inv h
          exact .pending hst hc hch
      | EAGAIN | EADDRINUSE | EADDRNOTAVAIL | ECONNREFUSED | ENETUNREACH =>
          cases h
          exact .retry hst hc
      | EACCES | EPERM | EAFNOSUPPORT | EALREADY | EBADF | EFAULT | ENOTSOCK
      | other e =>
          cases h
          exact .failed hst hc

/-- `startInLoop` returns when its assertion holds and `channel_` is
reset. -/
theorem startInLoop_ok (errno : ConnectErrno)
    (hst : s.state = .kDisconnected) (hch : s.channel = none) :
    ∃ s', s.startInLoop errno = .ok s' := by
  unfold startInLoop
  rw [require_bind hst]
  split
  · cases errno with
    | success | EINPROGRESS | EINTR | EISCONN =>
        exact ⟨s.pending, require_bind (p := s.channel = none) hch _⟩
    | _ => exact ⟨_, rfl⟩
  · exact ⟨s, rfl⟩

theorem removeAndResetChannel_inv {p : Connector U × Nat}
    (h : s.removeAndResetChannel = .ok p) :
    ∃ channel, s.channel = some channel
      ∧ p = (s.detached channel, channel.fd) := by
  unfold removeAndResetChannel at h
  cases hch : s.channel with
  | none =>
      rw [hch] at h
      cases h
  | some channel =>
      rw [hch] at h
      cases h
      exact ⟨channel, rfl, rfl⟩

theorem removeAndResetChannel_some {channel : Channel}
    (h : s.channel = some channel) :
    s.removeAndResetChannel = .ok (s.detached channel, channel.fd) := by
  unfold removeAndResetChannel
  rw [h]
  rfl

/-- `retry`, with its two branches as the values of two fields. -/
theorem retry_eq (s : Connector U) (sockfd : Nat) :
    s.retry sockfd = { s.close sockfd with
      state := .kDisconnected
      timers := if s.connect_ then s.timers ++ [s.retryDelayMs] else s.timers
      retryDelayMs :=
        if s.connect_ then min (s.retryDelayMs * 2) kMaxRetryDelayMs
        else s.retryDelayMs } := by
  cases hc : s.connect_ with
  | true => simp [retry, close, setState, hc]
  | false => simp [retry, close, setState, hc]

@[simp] theorem retry_state (s : Connector U) (sockfd : Nat) :
    (s.retry sockfd).state = .kDisconnected := by
  rw [retry_eq]

/-- The write callback does nothing, or ends the attempt. -/
theorem handleWrite_ends {soError : Nat} {selfConnect : Bool} {o : Option Nat}
    (h : s.handleWrite soError selfConnect = .ok (s', o)) :
    (s' = s ∧ o = none ∧ s.state = .kDisconnected)
      ∨ (Ends s s' o ∧ (s'.state = .kConnected →
          soError = 0 ∧ selfConnect = false)) := by
  unfold handleWrite at h
  split at h
  next hst =>
    obtain ⟨p, hp, hrest⟩ := bind_ok_inv h
    obtain ⟨channel, hch, rfl⟩ := removeAndResetChannel_inv hp
    right
    simp only at hrest
    split at hrest
    next =>
      cases hrest
      exact ⟨.retry channel hst hch, by simp⟩
    next hso =>
      split at hrest
      next =>
        cases hrest
        exact ⟨.retry channel hst hch, by simp⟩
      next hself =>
        have hok : soError = 0 ∧ selfConnect = false :=
          ⟨not_not.1 hso, Bool.eq_false_of_not_eq_true hself⟩
        split at hrest
        next hc =>
          cases hrest
          exact ⟨.handed channel hst hch hc, fun _ => hok⟩
        next hc =>
          cases hrest
          exact ⟨.late channel hst hch (Bool.eq_false_of_not_eq_true hc),
            fun _ => hok⟩
  next =>
    obtain ⟨u, hreq, hrest⟩ := bind_ok_inv h
    cases hrest
    exact .inl ⟨rfl, rfl, require_inv hreq⟩

/-- The error callback does nothing, or ends the attempt. -/
theorem handleError_ends (h : s.handleError = .ok s') :
    (s' = s ∧ s.state ≠ .kConnecting)
      ∨ (Ends s s' none ∧ s'.state = .kDisconnected) := by
  unfold handleError at h
  split at h
  next hst =>
    obtain ⟨p, hp, hrest⟩ := bind_ok_inv h
    obtain ⟨channel, hch, rfl⟩ := removeAndResetChannel_inv hp
    cases hrest
    exact .inr ⟨.retry channel hst hch, retry_state _ _⟩
  next hst =>
    cases h
    exact .inl ⟨rfl, hst⟩

theorem Ends.state {o : Option Nat} (h : Ends s s' o) :
    s.state = .kConnecting := by
  cases h with
  | retry _ hst => exact hst
  | handed _ hst => exact hst
  | late _ hst => exact hst

/-- The event is that of a connection that is up: a write event without an
error event, no `SO_ERROR`, and two different ends. -/
def connectsOn (revents : BitVec 32) (soError : Nat) (selfConnect : Bool) :
    Bool :=
  !hasAny revents (POLLERR ||| POLLNVAL) && hasAny revents POLLOUT
    && soError == 0 && !selfConnect

/-- An event does nothing to the connector, or ends the attempt. When
both callbacks are called, the first has ended it. -/
theorem handleEventWithGuard_ends {revents : BitVec 32} {soError : Nat}
    {selfConnect : Bool} {o : Option Nat}
    (h : s.handleEventWithGuard revents soError selfConnect = .ok (s', o)) :
    (s' = s ∧ o = none)
      ∨ (Ends s s' o ∧ (s'.state = .kConnected →
          connectsOn revents soError selfConnect = true)) := by
  obtain ⟨s₁, herr, hw⟩ := bind_ok_inv h
  cases hb : hasAny revents (POLLERR ||| POLLNVAL) with
  | true =>
      rw [guarded_true hb] at herr
      rcases handleError_ends herr with ⟨rfl, hst⟩ | ⟨hends, hst⟩
      · -- no attempt is under way
        left
        split at hw
        · rcases handleWrite_ends hw with ⟨rfl, rfl, -⟩ | ⟨hends, -⟩
          · exact ⟨rfl, rfl⟩
          · exact absurd hends.state hst
        · cases hw
          exact ⟨rfl, rfl⟩
      · right
        have hs : s' = s₁ ∧ o = none := by
          split at hw
          · rcases handleWrite_ends hw with ⟨rfl, rfl, -⟩ | ⟨hends, -⟩
            · exact ⟨rfl, rfl⟩
            · rw [hends.state] at hst
              cases hst
          · cases hw
            exact ⟨rfl, rfl⟩
        obtain ⟨rfl, rfl⟩ := hs
        exact ⟨hends, fun hst' => by rw [hst] at hst'; cases hst'⟩
  | false =>
      rw [guarded_false hb] at herr
      cases herr
      split at hw
      next hout =>
        rcases handleWrite_ends hw with ⟨rfl, rfl, -⟩ | ⟨hends, hok⟩
        · exact .inl ⟨rfl, rfl⟩
        · refine .inr ⟨hends, fun hst => ?_⟩
          obtain ⟨rfl, rfl⟩ := hok hst
          unfold connectsOn
          rw [hb, hout]
          rfl
      next =>
        cases hw
        exact .inl ⟨rfl, rfl⟩

theorem stopInLoop_inv (h : s.stopInLoop = .ok s') :
    (s.state ≠ .kConnecting ∧ s' = { s with stopsRun := s.stopsRun + 1 })
      ∨ ∃ channel, s.state = .kConnecting ∧ s.channel = some channel
        ∧ s' = ({ s with stopsRun := s.stopsRun + 1 }.detached channel).retry
          channel.fd := by
  unfold stopInLoop at h
  simp only at h
  split at h
  next hst =>
    obtain ⟨p, hp, hrest⟩ := bind_ok_inv h
    obtain ⟨channel, hch, rfl⟩ := removeAndResetChannel_inv hp
    cases hrest
    refine .inr ⟨channel, hst, hch, ?_⟩
    rw [retry_eq, retry_eq]
    rfl
  next hst =>
    cases h
    exact .inl ⟨hst, rfl⟩

/-- The connector when the loop has taken the next functor. -/
def called (s : Connector U) : Connector U :=
  { s with loop := s.loop.callFunctor }

/-- The connector on which `restart` runs `startInLoop`. -/
def restarted (s : Connector U) : Connector U :=
  { (s.setState .kDisconnected).started with
    retryDelayMs := kInitRetryDelayMs }

/-- What the action can make of the connector: nothing, or one of the
moves of `step` with the guard it passed. -/
inductive Moves (s : Connector U) : ConnectorAct U → Connector U → Prop
  | stay (a : ConnectorAct U) : Moves s a s
  | start {s' : Connector U} (t : Nat) (errno : ConnectErrno)
      (hc : s.loop.canCall t = true) (ht : s.loop.isInLoopThread t = true)
      (h : Begins s.started s') : Moves s (.start t errno) s'
  | startOther (t : Nat) (errno : ConnectErrno)
      (hc : s.loop.canCall t = true) (ht : s.loop.isInLoopThread t = false) :
      Moves s (.start t errno)
        { s.started with loop := s.loop.submit t .startInLoop }
  | stop (t : Nat) : Moves s (.stop t) (s.stop t)
  | restart {s' : Connector U} (errno : ConnectErrno)
      (hc : s.loop.canCall s.loop.threadId = true)
      (h : Begins s.restarted s') : Moves s (.restart errno) s'
  | event {s' : Connector U} {o : Option Nat} (revents : BitVec 32)
      (soError : Nat) (selfConnect : Bool)
      (hpc : s.loop.canLoop .handling = true) (h : Ends s s' o)
      (hok : s'.state = .kConnected →
        connectsOn revents soError selfConnect = true) :
      Moves s (.handleEvent revents soError selfConnect) s'
  | timer {s' : Connector U} (k : Nat) (errno : ConnectErrno)
      (hpc : s.loop.canLoop .handling = true) (hk : k < s.timers.length)
      (h : Begins { s with timers := s.timers.eraseIdx k } s') :
      Moves s (.timer k errno) s'
  | callStart {s' : Connector U} {rest : List (ConnectorFunctor U)}
      (errno : ConnectErrno) (hpc : s.loop.canLoop .draining = true)
      (hf : s.loop.queue.functors = .startInLoop :: rest)
      (h : Begins s.called s') : Moves s (.call errno) s'
  | callStop {rest : List (ConnectorFunctor U)} (errno : ConnectErrno)
      (hpc : s.loop.canLoop .draining = true)
      (hf : s.loop.queue.functors = .stopInLoop :: rest)
      (hst : s.state ≠ .kConnecting) :
      Moves s (.call errno) { s.called with stopsRun := s.stopsRun + 1 }
  | callStopEnds {rest : List (ConnectorFunctor U)} (errno : ConnectErrno)
      (channel : Channel) (hpc : s.loop.canLoop .draining = true)
      (hf : s.loop.queue.functors = .stopInLoop :: rest)
      (hst : s.state = .kConnecting) (hch : s.channel = some channel) :
      Moves s (.call errno)
        (({ s.called with stopsRun := s.stopsRun + 1 }.detached channel).retry
          channel.fd)
  | callReset {rest : List (ConnectorFunctor U)} (errno : ConnectErrno)
      (hpc : s.loop.canLoop .draining = true)
      (hf : s.loop.queue.functors = .resetChannel :: rest) :
      Moves s (.call errno) s.called.resetChannel
  | callOther {rest : List (ConnectorFunctor U)} (errno : ConnectErrno) (f : U)
      (hpc : s.loop.canLoop .draining = true)
      (hf : s.loop.queue.functors = .other f :: rest) :
      Moves s (.call errno) s.called
  | loop (a : WorkerAct U) {a' : WorkerAct (ConnectorFunctor U)}
      {w : Worker (ConnectorFunctor U)} (ha : a.lift .other = some a')
      (hw : s.loop.step a' = .ok w) : Moves s (.loop a) { s with loop := w }

theorem step_moves {a : ConnectorAct U} (h : s.step a = .ok s') :
    Moves s a s' := by
  cases a with
  | start t errno =>
      simp only [step] at h
      split at h
      next hc =>
        unfold Connector.start at h
        simp only at h
        split at h
        next ht => exact .start t errno hc ht (startInLoop_begins h)
        next ht =>
          cases h
          exact .startOther t errno hc (Bool.eq_false_of_not_eq_true ht)
      next =>
        cases h
        exact .stay _
  | stop t =>
      simp only [step] at h
      split at h
      next =>
        cases h
        exact .stop t
      next =>
        cases h
        exact .stay _
  | restart errno =>
      simp only [step] at h
      split at h
      next hc => exact .restart errno hc (startInLoop_begins h)
      next =>
        cases h
        exact .stay _
  | handleEvent revents soError selfConnect =>
      obtain ⟨p, hp, hrest⟩ := bind_ok_inv h
      cases hrest
      unfold Connector.handleEvent at hp
      split at hp
      next hw =>
        rw [Bool.and_eq_true] at hw
        rcases handleEventWithGuard_ends hp with ⟨hs, -⟩ | ⟨hends, hok⟩
        · rw [hs]
          exact .stay _
        · exact .event revents soError selfConnect hw.1 hends hok
      next =>
        cases hp
        exact .stay _
  | timer k errno =>
      simp only [step, Connector.timer] at h
      split at h
      next hk =>
        rw [Bool.and_eq_true, decide_eq_true_eq] at hk
        exact .timer k errno hk.1 hk.2 (startInLoop_begins h)
      next =>
        cases h
        exact .stay _
  | call errno =>
      simp only [step] at h
      split at h
      next hpc =>
        split at h
        next =>
          cases h
          exact .stay _
        next f rest hf =>
          cases f with
          | startInLoop => exact .callStart errno hpc hf (startInLoop_begins h)
          | stopInLoop =>
              rcases stopInLoop_inv h with ⟨hst, rfl⟩ | ⟨channel, hst, hch, rfl⟩
              · exact .callStop errno hpc hf hst
              · exact .callStopEnds errno channel hpc hf hst hch
          | resetChannel =>
              cases h
              exact .callReset errno hpc hf
          | other f =>
              cases h
              exact .callOther errno f hpc hf
      next =>
        cases h
        exact .stay _
  | loop a =>
      simp only [step, loopStep] at h
      split at h
      next =>
        cases h
        exact .stay _
      next a' ha =>
        obtain ⟨w, hw, hrest⟩ := bind_ok_inv h
        cases hrest
        exact .loop a ha (mapError_ok_inv hw)

-- ======================================================== what is due

/-- The functors of the connector that are submitted and not called. -/
def due (s : Connector U) : List (ConnectorFunctor U) :=
  s.loop.queue.waiting

theorem Begins.loop (h : Begins s s') : s'.loop = s.loop := by
  cases h with
  | stopped => rfl
  | pending => rfl
  | retry => rw [retry_eq]; rfl
  | failed => rfl

theorem Begins.due (h : Begins s s') : s'.due = s.due := by
  unfold Connector.due
  rw [h.loop]

theorem due_detached (s : Connector U) (channel : Channel) :
    (s.detached channel).due = s.due ++ [.resetChannel] :=
  Worker.waiting_submit _ _ _

theorem due_retry (s : Connector U) (sockfd : Nat) :
    (s.retry sockfd).due = s.due := by
  rw [retry_eq]
  rfl

theorem Ends.due {o : Option Nat} (h : Ends s s' o) :
    s'.due = s.due ++ [.resetChannel] := by
  cases h with
  | retry channel => rw [due_retry, due_detached]
  | handed channel => exact due_detached s channel
  | late channel => exact due_detached s channel

theorem due_called {f : ConnectorFunctor U} {rest : List (ConnectorFunctor U)}
    (hf : s.loop.queue.functors = f :: rest) : s.due = f :: s.called.due :=
  Worker.waiting_callFunctor hf

theorem due_stop (s : Connector U) (t : Nat) :
    (s.stop t).due = s.due ++ [.stopInLoop] :=
  Worker.waiting_submit _ _ _

theorem due_startOther (s : Connector U) (t : Nat) :
    { s.started with loop := s.loop.submit t .startInLoop }.due
      = s.due ++ [.startInLoop] :=
  Worker.waiting_submit _ _ _

/-- What a functor of another does not change, no step of the loop
changes. -/
theorem due_loop {P : List (ConnectorFunctor U) → Prop} {a : WorkerAct U}
    {a' : WorkerAct (ConnectorFunctor U)} {w : Worker (ConnectorFunctor U)}
    (hq : s.loop.QueueInv) (ha : a.lift .other = some a')
    (hw : s.loop.step a' = .ok w) (hpush : ∀ q k, P q → P (q ++ [.other k]))
    (h : P s.due) : P { s with loop := w }.due := by
  obtain ⟨fs, hwait, hfs⟩ := Worker.waiting_lift hq ha hw
  have hdue : { s with loop := w }.due = s.due ++ fs := hwait
  rw [hdue]
  clear hdue hwait
  induction fs using List.reverseRecOn with
  | nil =>
      rw [List.append_nil]
      exact h
  | append_singleton fs f ih =>
      obtain ⟨k, rfl⟩ := hfs f (by simp)
      rw [← List.append_assoc]
      exact hpush _ k (ih fun g hg => hfs g (List.mem_append_left _ hg))

/-- The worker's invariant goes with every step. -/
theorem queueInv_moves {a : ConnectorAct U} (hq : s.loop.QueueInv)
    (h : Moves s a s') : s'.loop.QueueInv := by
  have hcall : s.loop.canLoop .draining = true → s.called.loop.QueueInv :=
    fun hpc => Worker.queueInv_moves hq (.call hpc)
  have hsubmit : ∀ (w : Worker (ConnectorFunctor U)) (t : Nat)
      (f : ConnectorFunctor U), w.QueueInv → (w.submit t f).QueueInv :=
    fun w t f hw => Worker.queueInv_submit hw t f
  cases h with
  | stay => exact hq
  | start t errno hc ht h => rw [h.loop]; exact hq
  | startOther t errno hc ht => exact hsubmit _ _ _ hq
  | stop t => exact hsubmit _ _ _ hq
  | restart errno hc h => rw [h.loop]; exact hq
  | event revents soError selfConnect hpc h hok =>
      cases h with
      | retry => rw [retry_eq]; exact hsubmit _ _ _ hq
      | handed => exact hsubmit _ _ _ hq
      | late => exact hsubmit _ _ _ hq
  | timer k errno hpc hk h => rw [h.loop]; exact hq
  | callStart errno hpc hf h => rw [h.loop]; exact hcall hpc
  | callStop errno hpc hf hst => exact hcall hpc
  | callStopEnds errno channel hpc hf hst hch =>
      rw [retry_eq]
      exact hsubmit _ _ _ (hcall hpc)
  | callReset errno hpc hf => exact hcall hpc
  | callOther errno f hpc hf => exact hcall hpc
  | loop a ha hw => exact Worker.queueInv_moves hq (Worker.step_moves hw)

-- ================================================== what becomes of it

theorem Begins.length (h : Begins s s') (hc : s.connect_ = true) :
    s'.sockets.length = s.sockets.length + 1 ∧ s'.connect_ = true := by
  cases h with
  | stopped _ hc' =>
      rw [hc] at hc'
      cases hc'
  | pending => exact ⟨List.length_append, hc⟩
  | retry =>
      rw [retry_eq]
      exact ⟨(List.length_modify _ _ _).trans List.length_append, hc⟩
  | failed => exact ⟨(List.length_modify _ _ _).trans List.length_append, hc⟩

theorem Ends.length {o : Option Nat} (h : Ends s s' o) :
    s'.sockets.length = s.sockets.length ∧ s'.connect_ = s.connect_ := by
  cases h with
  | retry =>
      rw [retry_eq]
      exact ⟨List.length_modify _ _ _, rfl⟩
  | handed => exact ⟨List.length_modify _ _ _, rfl⟩
  | late => exact ⟨List.length_modify _ _ _, rfl⟩

/-- With the flag down `startInLoop` does nothing. -/
theorem Begins.stopped_inv (h : Begins s s') (hc : s.connect_ = false) :
    s' = s := by
  cases h with
  | stopped => rfl
  | pending _ hc' =>
      rw [hc] at hc'
      cases hc'
  | retry _ hc' =>
      rw [hc] at hc'
      cases hc'
  | failed _ hc' =>
      rw [hc] at hc'
      cases hc'

/-- With the flag down nothing is handed over. -/
theorem Ends.stopped_inv {o : Option Nat} (h : Ends s s' o)
    (hc : s.connect_ = false) : o = none := by
  cases h with
  | retry => rfl
  | handed _ _ _ hc' =>
      rw [hc] at hc'
      cases hc'
  | late => rfl

end Cobra.Connector
