/-
A stopped client stays stopped.

`stop` puts down two flags, the client's and the connector's. Each way
back to an attempt looks at one of them: `startInLoop`, from a timer or
from a functor, and `handleWrite` at the connector's, `removeConnection`
at the client's. Only `connect` puts them up again, apart from `restart`,
which `removeConnection` does not reach. So both stay down, and while
they are nothing is created, handed over or restarted (`Quiet`).
-/
import Cobra.Proofs.Connector
import Cobra.TcpClient

namespace Cobra

open Machine

namespace Connector

variable {U : Type} {s s' : Connector U}

/-- The connector's flag is down, and no socket was created. -/
structure StaysStopped (s s' : Connector U) : Prop where
  flag : s'.connect_ = false
  sockets : s'.sockets.length = s.sockets.length

theorem staysStopped_begins (hc : s.connect_ = false) (h : Begins s s') :
    StaysStopped s s' := by
  rw [h.stopped_inv hc]
  exact ⟨hc, rfl⟩

theorem staysStopped_ends {o : Option Nat} (hc : s.connect_ = false)
    (h : Ends s s' o) : StaysStopped s s' :=
  ⟨h.length.2.trans hc, h.length.1⟩

theorem staysStopped_apply {errno : ConnectErrno} {f : ConnectorFunctor U}
    (hc : s.connect_ = false) (h : s.apply errno f = .ok s') :
    StaysStopped s s' := by
  cases f with
  | startInLoop => exact staysStopped_begins hc (startInLoop_begins h)
  | stopInLoop =>
      rcases stopInLoop_inv h with ⟨-, rfl⟩ | ⟨channel, hst, hch, rfl⟩
      · exact ⟨hc, rfl⟩
      · obtain ⟨hflag, hlen⟩ := staysStopped_ends
          (s := { s with stopsRun := s.stopsRun + 1 }) hc
          (.retry channel hst hch)
        exact ⟨hflag, hlen⟩
  | resetChannel =>
      cases h
      exact ⟨hc, rfl⟩
  | other f =>
      cases h
      exact ⟨hc, rfl⟩

theorem staysStopped_timer {k : Nat} {errno : ConnectErrno}
    (hc : s.connect_ = false) (h : s.timer k errno = .ok s') :
    StaysStopped s s' := by
  unfold timer at h
  split at h
  · obtain ⟨hflag, hlen⟩ := staysStopped_begins
      (s := { s with timers := s.timers.eraseIdx k }) hc (startInLoop_begins h)
    exact ⟨hflag, hlen⟩
  · cases h
    exact ⟨hc, rfl⟩

theorem staysStopped_loopStep {a : WorkerAct U} (hc : s.connect_ = false)
    (h : s.loopStep a = .ok s') : StaysStopped s s' := by
  unfold loopStep at h
  split at h
  · cases h
    exact ⟨hc, rfl⟩
  · obtain ⟨w, -, hrest⟩ := bind_ok_inv h
    cases hrest
    exact ⟨hc, rfl⟩

theorem staysStopped_handleEvent {revents : BitVec 32} {soError : Nat}
    {selfConnect : Bool} {o : Option Nat} (hc : s.connect_ = false)
    (h : s.handleEvent revents soError selfConnect = .ok (s', o)) :
    StaysStopped s s' ∧ o = none := by
  unfold handleEvent at h
  split at h
  · rcases handleEventWithGuard_ends h with ⟨rfl, rfl⟩ | ⟨hends, -⟩
    · exact ⟨⟨hc, rfl⟩, rfl⟩
    · exact ⟨staysStopped_ends hc hends, hends.stopped_inv hc⟩
  · cases h
    exact ⟨⟨hc, rfl⟩, rfl⟩

-- ================================================ where a run can stop

theorem removeAndResetChannel_error {e : ConnectorAssert}
    (h : s.removeAndResetChannel = .error e) : e = .nullChannel := by
  unfold removeAndResetChannel at h
  split at h
  · cases h
    rfl
  · cases h

theorem handleError_error {e : ConnectorAssert} (h : s.handleError = .error e) :
    e = .nullChannel := by
  unfold handleError at h
  split at h
  · rcases bind_error_inv h with hrm | ⟨p, -, hrest⟩
    · exact removeAndResetChannel_error hrm
    · cases hrest
  · cases h

theorem handleWrite_error {soError : Nat} {selfConnect : Bool}
    {e : ConnectorAssert} (h : s.handleWrite soError selfConnect = .error e) :
    e ≠ .connecting := by
  unfold handleWrite at h
  split at h
  · rcases bind_error_inv h with hrm | ⟨p, -, hrest⟩
    · simp [removeAndResetChannel_error hrm]
    · simp only at hrest
      split at hrest
      · cases hrest
      · split at hrest
        · cases hrest
        · split at hrest
          · cases hrest
          · cases hrest
  · rcases bind_error_inv h with hreq | ⟨u, -, hrest⟩
    · simp [require_error_inv hreq]
    · cases hrest

theorem handleEvent_error {revents : BitVec 32} {soError : Nat}
    {selfConnect : Bool} {e : ConnectorAssert}
    (h : s.handleEvent revents soError selfConnect = .error e) :
    e ≠ .connecting := by
  unfold handleEvent at h
  split at h
  · rcases bind_error_inv h with herr | ⟨s₁, -, hw⟩
    · unfold guarded at herr
      split at herr
      · simp [handleError_error herr]
      · cases herr
    · split at hw
      · exact handleWrite_error hw
      · cases hw
  · cases h

/-- With the flag down no attempt gets as far as `connecting`. -/
theorem startInLoop_stopped_error {errno : ConnectErrno} {e : ConnectorAssert}
    (hc : s.connect_ = false) (h : s.startInLoop errno = .error e) :
    e ≠ .connecting := by
  rcases bind_error_inv h with hreq | ⟨u, -, hrest⟩
  · simp [require_error_inv hreq]
  · rw [hc] at hrest
    cases hrest

theorem apply_error {errno : ConnectErrno} {f : ConnectorFunctor U}
    {e : ConnectorAssert} (hc : s.connect_ = false)
    (h : s.apply errno f = .error e) : e ≠ .connecting := by
  cases f with
  | startInLoop => exact startInLoop_stopped_error hc h
  | stopInLoop =>
      simp only [apply, stopInLoop] at h
      split at h
      · rcases bind_error_inv h with hrm | ⟨p, -, hrest⟩
        · simp [removeAndResetChannel_error hrm]
        · cases hrest
      · cases h
  | resetChannel => cases h
  | other f => cases h

theorem timer_error {k : Nat} {errno : ConnectErrno} {e : ConnectorAssert}
    (hc : s.connect_ = false) (h : s.timer k errno = .error e) :
    e ≠ .connecting := by
  unfold timer at h
  split at h
  · exact startInLoop_stopped_error (s := { s with
      timers := s.timers.eraseIdx k }) hc h
  · cases h

theorem loopStep_error {a : WorkerAct U} {e : ConnectorAssert}
    (h : s.loopStep a = .error e) : e ≠ .connecting := by
  unfold loopStep at h
  split at h
  · cases h
  · rcases bind_error_inv h with hw | ⟨w, -, hrest⟩
    · rcases mapError_error_inv hw with ⟨w, -, rfl⟩
      simp
    · cases hrest

end Connector

namespace TcpClient

variable {s s' : TcpClient}

/-- Both flags are down. -/
structure Stopped (s : TcpClient) : Prop where
  connect_ : s.connect_ = false
  connector : s.connector.connect_ = false

/-- Both flags are down, and nothing was created, handed over or
restarted. -/
structure Quiet (s s' : TcpClient) : Prop extends Stopped s' where
  sockets : s'.connector.sockets.length = s.connector.sockets.length
  conns : s'.conns.length = s.conns.length
  restarts : s'.restarts = s.restarts

theorem Stopped.quiet (h : Stopped s) : Quiet s s := ⟨h, rfl, rfl, rfl⟩

theorem Quiet.trans {s'' : TcpClient} (h : Quiet s s') (h' : Quiet s' s'') :
    Quiet s s'' where
  toStopped := h'.toStopped
  sockets := h'.sockets.trans h.sockets
  conns := h'.conns.trans h.conns
  restarts := h'.restarts.trans h.restarts

/-- `Quiet`, from a step of the connector. -/
theorem quiet_withConnector
    {x : Except ConnectorAssert (Connector ClientFunctor)} (hs : Stopped s)
    (hx : ∀ c, x = .ok c → Connector.StaysStopped s.connector c)
    (h : s.withConnector x = .ok s') : Quiet s s' := by
  obtain ⟨c, hc, hrest⟩ := bind_ok_inv h
  cases hrest
  obtain ⟨hflag, hlen⟩ := hx c (mapError_ok_inv hc)
  exact ⟨⟨hs.connect_, hflag⟩, hlen, rfl, rfl⟩

theorem quiet_setState (hs : Stopped s) (c : Nat) (state : StateE) :
    Quiet s (s.setState c state) :=
  ⟨⟨hs.connect_, hs.connector⟩, rfl, List.length_modify _ _ _, rfl⟩

theorem quiet_shutdown (hs : Stopped s) (c : Nat) : Quiet s (s.shutdown c) := by
  unfold shutdown
  split
  · split
    · exact quiet_setState hs c _
    · exact hs.quiet
  · exact hs.quiet

theorem quiet_disconnect (hs : Stopped s) : Quiet s s.disconnect := by
  have hdown : Quiet s { s with connect_ := false } :=
    ⟨⟨rfl, hs.connector⟩, rfl, rfl, rfl⟩
  unfold disconnect
  simp only
  split
  · exact hdown.trans (quiet_shutdown hdown.toStopped _)
  · exact hdown

theorem quiet_connectDestroyed (hs : Stopped s) (c : Nat) :
    Quiet s (s.connectDestroyed c) := by
  unfold connectDestroyed
  split
  · split
    · exact quiet_setState hs c _
    · exact hs.quiet
  · exact hs.quiet

/-- The client's flag keeps `removeConnection` from `restart`. -/
theorem Stopped.no_restart (hs : Stopped s) : (s.retry && s.connect_) = false := by
  rw [hs.connect_]
  exact Bool.and_false _

theorem quiet_removeConnection {c : Nat} {errno : ConnectErrno}
    (hs : Stopped s) (h : s.removeConnection c errno = .ok s') : Quiet s s' := by
  obtain ⟨u, -, hrest⟩ := bind_ok_inv h
  simp only [hs.no_restart, Bool.false_eq_true, if_false] at hrest
  cases hrest
  exact ⟨⟨hs.connect_, hs.connector⟩, rfl, rfl, rfl⟩

theorem quiet_handleClose {c : Nat} {errno : ConnectErrno} (hs : Stopped s)
    (h : s.handleClose c errno = .ok s') : Quiet s s' := by
  unfold handleClose at h
  split at h
  · obtain ⟨u, -, hrest⟩ := bind_ok_inv h
    have hset := quiet_setState hs c .kDisconnected
    exact hset.trans (quiet_removeConnection hset.toStopped hrest)
  · cases h
    exact hs.quiet

theorem quiet_apply {errno : ConnectErrno}
    {f : ConnectorFunctor ClientFunctor} (hs : Stopped s)
    (h : s.apply errno f = .ok s') : Quiet s s' := by
  unfold apply at h
  split at h
  · cases h
    exact quiet_connectDestroyed hs _
  · exact quiet_withConnector hs
      (fun _ hc => Connector.staysStopped_apply hs.connector hc) h

-- ============================================================ the steps

def isConnect : ClientAct → Bool
  | .connect _ _ => true
  | _ => false

theorem quiet_step {a : ClientAct} (hs : Stopped s)
    (ha : isConnect a = false) (h : s.step a = .ok s') : Quiet s s' := by
  cases a with
  | connect t errno => cases ha
  | disconnect t =>
      simp only [step] at h
      split at h
      · cases h
        exact quiet_disconnect hs
      · cases h
        exact hs.quiet
  | stop t =>
      simp only [step] at h
      split at h
      · cases h
        exact ⟨⟨rfl, rfl⟩, rfl, rfl, rfl⟩
      · cases h
        exact hs.quiet
  | enableRetry =>
      cases h
      exact ⟨⟨hs.connect_, hs.connector⟩, rfl, rfl, rfl⟩
  | handleEvent revents soError selfConnect =>
      obtain ⟨⟨c, o⟩, hc, hrest⟩ := bind_ok_inv h
      obtain ⟨⟨hflag, hlen⟩, rfl⟩ :=
        Connector.staysStopped_handleEvent hs.connector (mapError_ok_inv hc)
      cases hrest
      exact ⟨⟨hs.connect_, hflag⟩, hlen, rfl, rfl⟩
  | timer k errno =>
      exact quiet_withConnector hs
        (fun _ hc => Connector.staysStopped_timer hs.connector hc) h
  | call errno =>
      simp only [step] at h
      split at h
      · split at h
        · cases h
          exact hs.quiet
        · have hcalled : Quiet s { s with connector := s.connector.called } :=
            ⟨⟨hs.connect_, hs.connector⟩, rfl, rfl, rfl⟩
          exact hcalled.trans (quiet_apply hcalled.toStopped h)
      · cases h
        exact hs.quiet
  | handleClose c errno =>
      simp only [step] at h
      split at h
      · exact quiet_handleClose hs h
      · cases h
        exact hs.quiet
  | loop a =>
      simp only [step] at h
      split at h
      · exact quiet_withConnector hs
          (fun _ hc => Connector.staysStopped_loopStep hs.connector hc) h
      · cases h
        exact hs.quiet

theorem withConnector_error
    {x : Except ConnectorAssert (Connector ClientFunctor)} {e : ClientAssert}
    (hx : ∀ e, x = .error e → e ≠ .connecting)
    (h : s.withConnector x = .error e) : e ≠ .connector .connecting := by
  rcases bind_error_inv h with hc | ⟨c, -, hrest⟩
  · obtain ⟨e', he', rfl⟩ := mapError_error_inv hc
    intro heq
    cases heq
    exact hx _ he' rfl
  · cases hrest

/-- A step that fails has created no socket: it does not fail in
`connecting`. -/
theorem step_error {a : ClientAct} {e : ClientAssert} (hs : Stopped s)
    (ha : isConnect a = false) (h : s.step a = .error e) :
    e ≠ .connector .connecting := by
  cases a with
  | connect t errno => cases ha
  | disconnect t =>
      simp only [step] at h
      split at h
      · cases h
      · cases h
  | stop t =>
      simp only [step] at h
      split at h
      · cases h
      · cases h
  | enableRetry => cases h
  | handleEvent revents soError selfConnect =>
      rcases bind_error_inv h with hc | ⟨⟨c, o⟩, -, hrest⟩
      · obtain ⟨e', he', rfl⟩ := mapError_error_inv hc
        intro heq
        cases heq
        exact Connector.handleEvent_error he' rfl
      · cases o with
        | none => cases hrest
        | some sockfd => cases hrest
  | timer k errno =>
      exact withConnector_error
        (fun _ hc => Connector.timer_error hs.connector hc) h
  | call errno =>
      simp only [step] at h
      split at h
      · split at h
        · cases h
        · unfold apply at h
          split at h
          · cases h
          · exact withConnector_error
              (fun _ hc => Connector.apply_error (by exact hs.connector) hc) h
      · cases h
  | handleClose c errno =>
      simp only [step, handleClose] at h
      split at h
      · split at h
        · rcases bind_error_inv h with hreq | ⟨u, -, hrest⟩
          · rw [require_error_inv hreq]
            simp
          · rcases bind_error_inv hrest with hreq | ⟨u, -, hrest⟩
            · rw [require_error_inv hreq]
              simp
            · simp only [setState, hs.no_restart, Bool.false_eq_true,
                if_false] at hrest
              cases hrest
        · cases h
      · cases h
  | loop a =>
      simp only [step] at h
      split at h
      · exact withConnector_error (fun _ hc => Connector.loopStep_error hc) h
      · cases h

-- ======================================================== the result

/-- After `stop` and until the next `connect`, no socket is created, no
connection is made and the connector is not restarted, in whatever state
`stop` found the client. -/
theorem stop_is_final (s : TcpClient) (t : Nat)
    (hcall : s.connector.loop.canCall t = true) (later : List ClientAct)
    (hlater : ∀ a ∈ later, isConnect a = false) :
    (∀ s', run step s (.stop t :: later) = .ok s' →
      s'.connector.sockets.length = s.connector.sockets.length
      ∧ s'.conns.length = s.conns.length ∧ s'.restarts = s.restarts)
    ∧ run step s (.stop t :: later) ≠ .error (.connector .connecting) := by
  have hstop : s.step (.stop t) = .ok (s.stop t) := by
    simp only [step, if_pos hcall]
  have hinit : Quiet s (s.stop t) := ⟨⟨rfl, rfl⟩, rfl, rfl, rfl⟩
  have hC : Along step (fun _ a => isConnect a = false) (s.stop t)
      later := along_of_mem later _ fun a ha _ => hlater a ha
  have hstep : ∀ s₁ a s₂, Quiet s s₁ → isConnect a = false →
      s₁.step a = .ok s₂ → Quiet s s₂ :=
    fun _ _ _ h ha hok => h.trans (quiet_step h.toStopped ha hok)
  rw [run_cons_ok later hstop]
  constructor
  · intro s' hrun'
    have h := run_inv hstep hinit hC hrun'
    exact ⟨h.sockets, h.conns, h.restarts⟩
  · intro hrun'
    exact run_error (Q := fun e => e ≠ .connector .connecting) hstep
      (fun _ _ _ h ha herr => step_error h.toStopped ha herr) hinit hC hrun' rfl

/-- A client that retries, with one connection up. -/
def connectedOnce : List ClientAct :=
  [.enableRetry, .connect 0 .EINPROGRESS, .loop .Loop, .loop .test,
    .loop .pollReturn, .handleEvent POLLOUT 0 false, .loop .endHandling,
    .loop .swap, .call .success, .loop .ret, .loop .endPending, .loop .test,
    .loop .pollReturn]

/-- The connection is closed after `stop`: no restart. -/
theorem stop_is_final_connected :
    ∃ s, run step (create 0) connectedOnce = .ok s ∧ s.conns.length = 1
      ∧ ∃ s', run step s [.stop 0, .handleClose 0 .EINPROGRESS] = .ok s'
        ∧ s'.connection = none
        ∧ s'.connector.sockets.length = s.connector.sockets.length
        ∧ s'.conns.length = s.conns.length ∧ s'.restarts = s.restarts := by
  obtain ⟨s, hrun, hview⟩ := map_ok_inv
    (show (run step (create 0) connectedOnce).map
        (fun s => (s.conns.length, s.connector.loop.canCall 0,
          (run step s [.stop 0, .handleClose 0 .EINPROGRESS]).map
            fun s' => s'.connection))
      = .ok (1, true, .ok none) by decide +kernel)
  have hone : s.conns.length = 1 := congrArg Prod.fst hview
  have hcall : s.connector.loop.canCall 0 = true :=
    congrArg (fun p => p.2.1) hview
  obtain ⟨s', hrun', hnone⟩ := map_ok_inv (congrArg (fun p => p.2.2) hview)
  exact ⟨s, hrun, hone, s', hrun', hnone,
    (stop_is_final s 0 hcall [.handleClose 0 .EINPROGRESS]
      (by decide)).1 s' hrun'⟩

end TcpClient

end Cobra
