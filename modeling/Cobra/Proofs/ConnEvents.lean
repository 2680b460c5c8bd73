/-
The callbacks of a connection, over its whole life: `connectionCb_` once
up, `messageCb_` any number of times, and at most one close, with
`connectionCb_` down and `closeCb_`; exactly if no event that makes the
channel close the connection also makes it read, successfully.

# The shape of a life

Leaving out everything but callbacks, the log of a live connection is
`connectionCb true` and messages, and that of a closed one ends with
`handleClose`, `connectionCb false`, `closeCb` (`Live`, `Closed`). Sends,
writes and shutdowns are quiet, so only the handlers of a poll event move
a connection from one shape to the next.

# The fan-out

`handleEventWithGuard` looks at `revents_` only. A hang-up without
`POLLIN` closes; `POLLPRI` or `POLLRDHUP` beside it then reads from the
connection that was just closed. A read that returns bytes calls
`messageCb_` after the down notification, and one that returns zero
enters `handleClose` again and fails its assertion
(`hup_with_pri_closes_twice`).
-/
import Cobra.ConnEvents
import Cobra.Proofs.TcpConnection

namespace Cobra

open Machine

-- =========================================================== callbacks

/-- The entry is about a callback of the protocol, or about entering the
handler that closes. -/
def ConnObs.isCallback : ConnObs → Bool
  | .connectionCb _ => true
  | .messageCb => true
  | .handleClose => true
  | .closeCb => true
  | _ => false

/-- The callbacks of a log. -/
def callbacks (obs : List ConnObs) : List ConnObs :=
  obs.filter ConnObs.isCallback

theorem callbacks_append (l l' : List ConnObs) :
    callbacks (l ++ l') = callbacks l ++ callbacks l' := List.filter_append ..

theorem callbacks_of_quiet {new : List ConnObs}
    (h : ∀ o ∈ new, o.isQuiet = true) : callbacks new = [] := by
  unfold callbacks
  rw [List.filter_eq_nil_iff]
  intro o ho hcall
  have hq := h o ho
  cases o with
  | connectionCb b => exact absurd hq (by simp [ConnObs.isQuiet, ConnObs.isOutput])
  | messageCb => exact absurd hq (by decide)
  | handleClose => exact absurd hq (by decide)
  | closeCb => exact absurd hq (by decide)
  | _ => cases hcall

theorem mem_callbacks {o : ConnObs} {obs : List ConnObs}
    (ho : o.isCallback = true) : o ∈ callbacks obs ↔ o ∈ obs := by
  unfold callbacks
  rw [List.mem_filter]
  exact and_iff_left ho

theorem count_callbacks {o : ConnObs} (obs : List ConnObs)
    (ho : o.isCallback = true) : (callbacks obs).count o = obs.count o :=
  List.count_filter ho

/-- The callback protocol of a connection. -/
structure Protocol (obs : List ConnObs) : Prop where
  handleClose : obs.count .handleClose ≤ 1
  closeCb : obs.count .closeCb ≤ 1
  up : obs.count (.connectionCb true) = 1
  down : obs.count (.connectionCb false) ≤ 1
  message : AtEach (fun _ o post => o = .connectionCb false →
    .messageCb ∉ post) obs

/-- A protocol that is kept was kept before. -/
theorem Protocol.of_append {l new : List ConnObs} (h : Protocol (l ++ new))
    (hup : 1 ≤ l.count (.connectionCb true)) : Protocol l := by
  have h₁ := h.handleClose
  have h₂ := h.closeCb
  have h₃ := h.up
  have h₄ := h.down
  rw [List.count_append] at h₁ h₂ h₃ h₄
  refine ⟨by omega, by omega, by omega, by omega, fun pre o post hl ho hm => ?_⟩
  refine h.message pre o (post ++ new) ?_ ho (List.mem_append_left _ hm)
  rw [hl, List.append_assoc, List.cons_append]

-- ============================================================ the shapes

namespace TcpConnection

variable {c c' : TcpConnection}

/-- A connection that has not been closed. -/
structure Live (c : TcpConnection) : Prop where
  up : Up c
  reading : c.channel.Reading
  calls : ∃ k, callbacks c.obs
    = .connectionCb true :: List.replicate k .messageCb

/-- A connection after `handleClose`, with `tail` called since then. -/
structure Down (tail : List ConnObs) (c : TcpConnection) : Prop where
  state : c.state = .kDisconnected
  none : c.channel.isNoneEvent = true
  calls : ∃ k, callbacks c.obs
    = .connectionCb true :: (List.replicate k .messageCb
      ++ .handleClose :: .connectionCb false :: tail)

/-- A connection that was closed, properly. -/
def Closed (c : TcpConnection) : Prop := Down [.closeCb] c

theorem Quiet.callbacks_eq (h : Quiet c c') :
    callbacks c'.obs = callbacks c.obs := by
  obtain ⟨new, hlog, hquiet⟩ := h.logged
  rw [hlog.obs, callbacks_append, callbacks_of_quiet hquiet, List.append_nil]

theorem Live.quiet (h : Live c) (hq : Quiet c c') : Live c' :=
  ⟨hq.up h.up, hq.reading h.reading, by rw [hq.callbacks_eq]; exact h.calls⟩

theorem Down.quiet {tail : List ConnObs} (h : Down tail c) (hq : Quiet c c') :
    Down tail c' :=
  ⟨(hq.down ⟨h.state, h.none⟩).1, (hq.down ⟨h.state, h.none⟩).2,
    by rw [hq.callbacks_eq]; exact h.calls⟩

/-- One more callback on a connection that is down. -/
theorem Down.log {tail : List ConnObs} (h : Down tail c) {o : ConnObs}
    (ho : o.isCallback = true) : Down (tail ++ [o]) (c.log o) := by
  refine ⟨h.state, h.none, ?_⟩
  obtain ⟨k, hk⟩ := h.calls
  refine ⟨k, ?_⟩
  show callbacks (c.obs ++ [o]) = _
  rw [callbacks_append, hk]
  unfold callbacks
  rw [List.filter_cons_of_pos ho]
  simp

end TcpConnection

/-- The close of a connection, as the callbacks see it. -/
def closeCalls : List ConnObs := [.handleClose, .connectionCb false, .closeCb]

/-- The life of a connection that was closed at most once is as the
protocol has it. -/
theorem protocol_of_calls {obs tail : List ConnObs} {k : Nat}
    (h : callbacks obs
      = .connectionCb true :: (List.replicate k .messageCb ++ tail))
    (htail : tail = [] ∨ tail = closeCalls) : Protocol obs := by
  have hcount : ∀ o : ConnObs, o.isCallback = true → o ≠ .messageCb →
      obs.count o = [.connectionCb true].count o + tail.count o := by
    intro o ho hmsg
    rw [← count_callbacks _ ho, h, ← List.singleton_append, List.count_append,
      List.count_append, List.count_replicate, if_neg (by simpa using hmsg.symm),
      Nat.zero_add]
  refine ⟨?_, ?_, ?_, ?_, ?_⟩
  · rw [hcount .handleClose rfl nofun]
    rcases htail with rfl | rfl <;> decide
  · rw [hcount .closeCb rfl nofun]
    rcases htail with rfl | rfl <;> decide
  · rw [hcount (.connectionCb true) rfl nofun]
    rcases htail with rfl | rfl <;> decide
  · rw [hcount (.connectionCb false) rfl nofun]
    rcases htail with rfl | rfl <;> decide
  · intro pre o post hobs ho hm
    subst ho
    rw [hobs, callbacks_append] at h
    have hpost : callbacks (.connectionCb false :: post)
        = .connectionCb false :: callbacks post := rfl
    rw [hpost] at h
    rcases htail with rfl | rfl
    · have hmem : ConnObs.connectionCb false
          ∈ ConnObs.connectionCb true :: (List.replicate k .messageCb ++ []) := by
        rw [← h]
        simp
      simp at hmem
    · -- the down notification is the one in the tail
      have hsplit : ConnObs.connectionCb true
          :: (List.replicate k ConnObs.messageCb ++ closeCalls)
          = (ConnObs.connectionCb true :: List.replicate k ConnObs.messageCb
              ++ [ConnObs.handleClose])
            ++ ConnObs.connectionCb false :: [ConnObs.closeCb] := by
        simp [closeCalls]
      rw [hsplit] at h
      have htail := ((List.append_cons_inj_of_notMem (by simp) (by simp)).1
        h.symm).2.2
      have hcall := (mem_callbacks (o := .messageCb) rfl).2 hm
      rw [← htail] at hcall
      simp at hcall

namespace TcpConnection

variable {c c' : TcpConnection}

theorem Live.protocol (h : Live c) : Protocol c.obs := by
  obtain ⟨k, hk⟩ := h.calls
  refine protocol_of_calls (k := k) ?_ (.inl rfl)
  rw [hk, List.append_nil]

theorem Closed.protocol (h : Closed c) : Protocol c.obs := by
  obtain ⟨k, hk⟩ := h.calls
  exact protocol_of_calls hk (.inr rfl)

-- ========================================================== the handlers

/-- `connectionCb_` as the last thing but one of a close. -/
theorem callConnectionCb_disconnect {k : Nat}
    (h : callbacks c.obs = .connectionCb true
      :: (List.replicate k .messageCb ++ [.handleClose]))
    (ops : List UserOp) :
    Holds (c.disconnect.callConnectionCb ops) (Down []) := by
  have hdown : Down [] (c.disconnect.log (.connectionCb false)) := by
    refine ⟨rfl, Channel.isNoneEvent_disableAll _, k, ?_⟩
    show callbacks (c.obs ++ [.updateChannel kNoneEvent]
      ++ [.connectionCb false]) = _
    rw [callbacks_append, callbacks_append, h]
    show _ ++ [] ++ [ConnObs.connectionCb false] = _
    simp
  unfold callConnectionCb
  exact holds_mono (userOps_quiet ops _) fun c' hq => hdown.quiet hq

/-- `handleClose` of a live connection closes it. -/
theorem handleClose_live (h : Live c) (ops : List UserOp) :
    Holds (c.handleClose ops) Closed := by
  obtain ⟨k, hk⟩ := h.calls
  have hup : (c.log .handleClose).state = .kConnected
      ∨ (c.log .handleClose).state = .kDisconnecting := h.up
  have hlog : callbacks (c.log .handleClose).obs = .connectionCb true
      :: (List.replicate k .messageCb ++ [.handleClose]) := by
    show callbacks (c.obs ++ [.handleClose]) = _
    rw [callbacks_append, hk]
    rfl
  unfold handleClose
  refine holds_require hup ?_
  refine holds_bind (callConnectionCb_disconnect hlog ops) fun c' hc => ?_
  exact holds_ok (hc.log rfl)

/-- A message, with whatever the user does about it. -/
theorem callMessageCb_live (h : Live c) (ops : List UserOp) :
    Holds (c.callMessageCb ops) Live := by
  obtain ⟨k, hk⟩ := h.calls
  have hlog : Live (c.log .messageCb) := by
    refine ⟨h.up, h.reading, k + 1, ?_⟩
    show callbacks (c.obs ++ [.messageCb]) = _
    rw [callbacks_append, hk, List.replicate_succ']
    rfl
  unfold callMessageCb
  exact holds_mono (userOps_quiet ops _) fun c' hq => hlog.quiet hq

theorem callMessageCb_down {tail : List ConnObs} (h : Down tail c)
    (ops : List UserOp) :
    Holds (c.callMessageCb ops) (Down (tail ++ [.messageCb])) := by
  unfold callMessageCb
  exact holds_mono (userOps_quiet ops _) fun c' hq => (h.log rfl).quiet hq

/-- A message after the down notification breaks the protocol. -/
theorem Down.not_protocol {tail : List ConnObs} (h : Down tail c)
    (hm : .messageCb ∈ tail) : ¬ Protocol c.obs := by
  intro hp
  obtain ⟨k, hk⟩ := h.calls
  unfold callbacks at hk
  rw [← List.singleton_append, ← List.append_assoc,
    List.filter_eq_append_iff] at hk
  obtain ⟨l₁, l₂, hobs, -, hk⟩ := hk
  obtain ⟨l₃, l₄, hobs', -, -, hk⟩ := List.filter_eq_cons_iff.1 hk
  obtain ⟨l₅, l₆, hobs'', -, -, hk⟩ := List.filter_eq_cons_iff.1 hk
  have hmem : .messageCb ∈ l₆ := by
    have hin : .messageCb ∈ l₆.filter ConnObs.isCallback := by
      rw [hk]
      exact hm
    exact (List.mem_filter.1 hin).1
  refine hp.message (l₁ ++ l₃ ++ .handleClose :: l₅) _ l₆ ?_ rfl hmem
  rw [hobs, hobs', hobs'']
  simp only [List.append_assoc, List.cons_append]

theorem handleRead_live (h : Live c) (i : EventInput) :
    Holds (c.handleRead i) fun c' => Live c' ∨ Closed c' := by
  cases hr : i.read with
  | failed e =>
      rw [handleRead_failed c hr]
      exact holds_ok (.inl h)
  | read stream =>
      obtain ⟨buf, heq⟩ := handleRead_read c hr
      have hlive := h.quiet (inputBuffer_quiet c buf)
      rw [heq]
      split
      · exact holds_mono (callMessageCb_live hlive _) fun _ => .inl
      · exact holds_mono (handleClose_live hlive _) fun _ => .inr

/-- `handleWrite` on either side of the close. -/
theorem handleWrite_life (h : Live c ∨ Closed c) (w : WriteResult) :
    Holds (c.handleWrite w) fun c' => Live c' ∨ Closed c' := by
  refine holds_mono (handleWrite_quiet c w) fun c' hq => ?_
  exact h.imp (fun h => h.quiet hq) (fun h => h.quiet hq)

/-- The event closes the connection and then reads from it: a hang-up
without `POLLIN`, but with `POLLPRI` or `POLLRDHUP`. -/
def closesAndReads (revents : BitVec 32) : Bool :=
  (hasAny revents POLLHUP && !hasAny revents POLLIN)
    && hasAny revents (POLLIN ||| POLLPRI ||| POLLRDHUP)

/-- The write that may end an event. -/
theorem guardedWrite_life (h : Live c ∨ Closed c) (b : Bool) (w : WriteResult) :
    Holds (guarded b (fun c => c.handleWrite w) c)
      fun c' => Live c' ∨ Closed c' := by
  unfold guarded
  split
  · exact handleWrite_life h w
  · exact holds_ok h

/-- An event, unless it closes and then reads something. -/
theorem handleEventWithGuard_live (h : Live c) {i : EventInput}
    (hC : ¬ (closesAndReads c.channel.revents = true ∧ ∃ d, i.read = .read d)) :
    Holds (c.handleEventWithGuard i) fun c' => Live c' ∨ Closed c' := by
  rw [handleEventWithGuard_eq]
  cases hclose : (hasAny c.channel.revents POLLHUP
      && !hasAny c.channel.revents POLLIN) with
  | false =>
      rw [guarded_false (by rfl), ok_bind]
      cases hread : hasAny c.channel.revents
          (POLLIN ||| POLLPRI ||| POLLRDHUP) with
      | false =>
          rw [guarded_false (by rfl), ok_bind]
          exact guardedWrite_life (.inl h) _ _
      | true =>
          rw [guarded_true (by rfl)]
          exact holds_bind (handleRead_live h i) fun c' hc =>
            guardedWrite_life hc _ _
  | true =>
      rw [guarded_true (by rfl)]
      refine holds_bind (handleClose_live h i.onConnection) fun c₁ hclosed => ?_
      cases hread : hasAny c.channel.revents
          (POLLIN ||| POLLPRI ||| POLLRDHUP) with
      | false =>
          rw [guarded_false (by rfl), ok_bind]
          exact guardedWrite_life (.inr hclosed) _ _
      | true =>
          cases hr : i.read with
          | failed e =>
              rw [guarded_true (by rfl), handleRead_failed c₁ hr, ok_bind]
              exact guardedWrite_life (.inr hclosed) _ _
          | read d =>
              have hmask : closesAndReads c.channel.revents = true := by
                unfold closesAndReads
                rw [hclose, hread]
                rfl
              exact (hC ⟨hmask, d, hr⟩).elim

/-- An event that closes and then reads something breaks the protocol. -/
theorem handleEventWithGuard_broken (h : Live c) {i : EventInput}
    (hmask : closesAndReads c.channel.revents = true) {d : List UInt8}
    (hr : i.read = .read d) (hok : c.handleEventWithGuard i = .ok c') :
    ¬ Protocol c'.obs := by
  unfold closesAndReads at hmask
  rw [Bool.and_eq_true] at hmask
  rw [handleEventWithGuard_eq] at hok
  simp only [hmask.1, hmask.2] at hok
  rw [guarded_true (by rfl)] at hok
  obtain ⟨c₁, hclosed, hclose⟩ := handleClose_live h i.onConnection
  rw [hclosed, ok_bind, guarded_true (by rfl)] at hok
  obtain ⟨buf, heq⟩ := handleRead_read c₁ hr
  have hdown := hclose.quiet (inputBuffer_quiet c₁ buf)
  rw [heq] at hok
  by_cases hd : d = []
  · -- the second close fails its assertion
    rw [if_neg (not_not.2 hd)] at hok
    obtain ⟨c₂, hsecond, -⟩ := bind_ok_inv hok
    unfold handleClose at hsecond
    obtain ⟨u, hreq, -⟩ := bind_ok_inv hsecond
    have hstate := require_inv hreq
    rw [show (({ c₁ with inputBuffer := buf } : TcpConnection).log
      .handleClose).state = .kDisconnected from hdown.state] at hstate
    rcases hstate with hs | hs <;> cases hs
  · -- the message comes after the down notification
    rw [if_pos hd] at hok
    obtain ⟨c₂, hmsg, hdown'⟩ := callMessageCb_down hdown i.onMessage
    rw [hmsg, ok_bind] at hok
    have hsame : c' = c₂ := by
      have hidle := handleWrite_idle (isWriting_of_isNoneEvent hdown'.none)
        i.write
      unfold guarded at hok
      simp only [hidle, ite_self] at hok
      exact (Except.ok.inj hok).symm
    rw [hsame]
    exact hdown'.not_protocol (by simp)

end TcpConnection

-- ============================================================ every run

namespace ConnEvents

open TcpConnection

variable {s s' : ConnEvents}

/-- The dispatched event closes the connection, and the read that follows
returns bytes or the end of the stream. -/
def ReadsAfterClose (s : ConnEvents) (a : EventAct) : Prop :=
  ∃ i d, a = .handleEvent i ∧ s.polled = true
    ∧ closesAndReads s.conn.channel.revents = true ∧ i.read = .read d

/-- Live, or closed with no event left to dispatch. -/
def InLife (s : ConnEvents) : Prop :=
  Live s.conn ∨ Closed s.conn ∧ s.polled = false

theorem inLife_create (fd : Nat) (writeCompleteCb highWaterMarkCb : Bool) :
    InLife (create fd writeCompleteCb highWaterMarkCb) :=
  .inl ⟨.inl rfl, Channel.reading_enableReading _, 0, rfl⟩

theorem InLife.protocol (h : InLife s) : Protocol s.conn.obs := by
  rcases h with h | ⟨h, -⟩
  · exact h.protocol
  · exact h.protocol

theorem InLife.quiet (h : InLife s) {c : TcpConnection}
    (hq : Quiet s.conn c) : InLife { s with conn := c } :=
  h.imp (fun h => h.quiet hq) (fun h => ⟨h.1.quiet hq, h.2⟩)

/-- The events that are delivered are those of live connections. -/
theorem InLife.live (h : InLife s) (hp : s.polled = true) : Live s.conn := by
  rcases h with h | ⟨-, hnot⟩
  · exact h
  · rw [hp] at hnot
    cases hnot

theorem step_inLife (h : InLife s) {a : EventAct}
    (hC : ¬ ReadsAfterClose s a) : Holds (s.step a) InLife := by
  cases a with
  | poll revents =>
      simp only [step]
      split
      next hpoll =>
        rw [Bool.and_eq_true, Bool.not_eq_true', Bool.not_eq_true'] at hpoll
        refine holds_ok (.inl ?_)
        rcases h with h | ⟨h, -⟩
        · exact ⟨h.up, h.reading, h.calls⟩
        · exact absurd (h.none.symm.trans hpoll.2) (by decide)
      next => exact holds_ok h
  | handleEvent i =>
      simp only [step]
      split
      next hp =>
        refine holds_bind (handleEventWithGuard_live (h.live hp) ?_)
          fun c hc => holds_ok (hc.imp_right fun h => ⟨h, rfl⟩)
        intro hbad
        obtain ⟨hmask, d, hd⟩ := hbad
        exact hC ⟨i, d, rfl, hp, hmask, hd⟩
      next => exact holds_ok h
  | user op =>
      exact holds_bind (userOp_quiet s.conn op) fun c hq => holds_ok (h.quiet hq)
  | output a =>
      exact holds_bind (outputStep_quiet s.conn a) fun c hq =>
        holds_ok (h.quiet hq)

/-- A step only adds to the log, tells the poller of every change of the
interest, and does not remove the channel. -/
theorem step_informed {a : EventAct} (hok : s.step a = .ok s') :
    ∃ new, s'.conn.obs = s.conn.obs ++ new ∧ .removeChannel ∉ new
      ∧ s'.conn.channel.fd = s.conn.channel.fd
      ∧ s'.conn.channel.events = lastEvents s.conn.channel.events new := by
  have hgrow : ∀ {c : TcpConnection}, Evolves s.conn c →
      ∃ new, c.obs = s.conn.obs ++ new ∧ .removeChannel ∉ new
        ∧ c.channel.fd = s.conn.channel.fd
        ∧ c.channel.events = lastEvents s.conn.channel.events new := by
    intro c h
    obtain ⟨new, hlog, hnot⟩ := h
    exact ⟨new, hlog.obs, hnot, hlog.fd, hlog.events⟩
  cases a with
  | poll revents =>
      simp only [step] at hok
      split at hok <;> cases hok <;>
        exact ⟨[], (List.append_nil _).symm, List.not_mem_nil, rfl, rfl⟩
  | handleEvent i =>
      simp only [step] at hok
      split at hok
      · obtain ⟨c, hc, hok⟩ := bind_ok_inv hok
        cases hok
        exact hgrow (handleEventWithGuard_evolves hc)
      · cases hok
        exact hgrow (.refl _)
  | user op =>
      obtain ⟨c, hc, hok⟩ := bind_ok_inv hok
      cases hok
      exact hgrow ((userOp_quiet s.conn op).of_ok hc).evolves
  | output a =>
      obtain ⟨c, hc, hok⟩ := bind_ok_inv hok
      cases hok
      exact hgrow ((outputStep_quiet s.conn a).of_ok hc).evolves

/-- In a run of events, sends and shutdowns, no assertion fails and the
callbacks keep the protocol, if and only if no event closes the
connection and then reads from it. -/
theorem protocol_iff_not_readsAfterClose (fd : Nat)
    (writeCompleteCb highWaterMarkCb : Bool) (acts : List EventAct) :
    (∃ s, run step (create fd writeCompleteCb highWaterMarkCb) acts = .ok s
        ∧ Protocol s.conn.obs)
      ↔ Along step (fun s a => ¬ ReadsAfterClose s a)
        (create fd writeCompleteCb highWaterMarkCb) acts := by
  -- what stays when the protocol is broken: the connection was up once
  have hcount : ∀ {s s' : ConnEvents} {a : EventAct}, s.step a = .ok s' →
      1 ≤ s.conn.obs.count (.connectionCb true) →
      1 ≤ s'.conn.obs.count (.connectionCb true) := by
    intro s s' a hok hup
    obtain ⟨new, hobs, -⟩ := step_informed hok
    rw [hobs, List.count_append]
    omega
  refine run_exact (I := InLife) (P := fun s => Protocol s.conn.obs)
    (J := fun s => 1 ≤ s.conn.obs.count (.connectionCb true)) ?_ ?_ ?_
    (fun _ h => h.protocol)
    (inLife_create fd writeCompleteCb highWaterMarkCb)
  · intro s a h hC
    exact step_inLife h hC
  · intro s a s' h hC hok
    refine ⟨hcount hok h.protocol.up.ge, ?_⟩
    obtain ⟨i, d, rfl, hp, hmask, hd⟩ := not_not.1 hC
    simp only [step, hp] at hok
    obtain ⟨c, hc, hok⟩ := bind_ok_inv hok
    cases hok
    exact handleEventWithGuard_broken (h.live hp) hmask hd hc
  · intro s a s' hup hlost hok
    refine ⟨hcount hok hup, fun h => hlost ?_⟩
    obtain ⟨new, hobs, -⟩ := step_informed hok
    rw [hobs] at h
    exact h.of_append hup

/-- A hang-up with urgent data, and a read that finds the end of the
stream. -/
def hupWithPri : List EventAct :=
  [.poll (POLLHUP ||| POLLPRI), .handleEvent ⟨.read [], .wrote 0, [], []⟩]

/-- The connection is closed twice, and the second close fails its
assertion. -/
theorem hup_with_pri_closes_twice :
    run step (create 9 false false) hupWithPri = .error .close
      ∧ ¬ ∃ s, run step (create 9 false false) hupWithPri = .ok s
        ∧ Protocol s.conn.obs := by
  have hrun : run step (create 9 false false) hupWithPri = .error .close := by
    decide +kernel
  refine ⟨hrun, fun h => ?_⟩
  obtain ⟨s, hs, -⟩ := h
  rw [hrun] at hs
  cases hs

end ConnEvents

end Cobra
