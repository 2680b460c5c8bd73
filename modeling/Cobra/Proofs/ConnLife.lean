/-
Write interest and pending output, over the whole life of a connection.

# The invariant

`Matched`: unless the connection is down, the channel asks for write
events exactly if the output buffer has bytes. Sends and writes keep it
(`Sent.balanced`, `Wrote.balanced`), whatever the kernel answers; reads
and half-closes touch neither side of it; the constructor and
`ConnectionEstablished` start it with an idle channel and an empty
buffer; and closing ends it, with the state that says so.

# Half-closes

`shutdownInLoop` looks at the interest alone. By the invariant that is
the same as looking at the buffer, for the functor and for the user's
`shutdown`; a `handleWrite` calls it right after it has found the buffer
empty. No other step logs a `ShutdownWrite` (`lifeStep_callsOnly`).
-/
import Cobra.ConnLife
import Cobra.Proofs.TcpConnection

namespace Cobra

open Machine

namespace TcpConnection

variable {c c' : TcpConnection}

/-- Write interest goes with pending output, unless the connection is
down. -/
def Matched (c : TcpConnection) : Prop :=
  c.state ≠ .kDisconnected → Balanced c

theorem balanced_iff : Balanced c
    ↔ (c.channel.isWriting = true ↔ 0 < c.outputBuffer.readableBytes) := by
  unfold Balanced
  rw [ne_eq, Buffer.content_eq_nil, Nat.pos_iff_ne_zero]

theorem matched_create (fd : Nat) (writeCompleteCb highWaterMarkCb : Bool) :
    Matched (create fd writeCompleteCb highWaterMarkCb) := by
  intro _
  unfold Balanced create
  rw [Channel.isWriting_create]
  exact iff_of_false Bool.false_ne_true (not_not.2 Buffer.content_empty)

/-- What touches neither the interest nor the output keeps the
invariant. -/
theorem Matched.congr (h : Matched c) (hstate : c'.state = c.state)
    (hchan : c'.channel.isWriting = c.channel.isWriting)
    (hout : c'.outputBuffer = c.outputBuffer) : Matched c' := by
  intro hup
  rw [hstate] at hup
  unfold Balanced
  rw [hchan, hout]
  exact h hup

/-- So does a step that stays down once it is down, and keeps the
balance. -/
theorem Matched.of_balanced (h : Matched c) (hstate : c'.state = c.state)
    (hbal : Balanced c → Balanced c') : Matched c' := by
  intro hup
  rw [hstate] at hup
  exact hbal (h hup)

theorem matched_down (h : c.state = .kDisconnected) : Matched c :=
  fun hup => absurd h hup

/-- `c'` is `c` after a function that made no half-close. -/
def Silent (c c' : TcpConnection) : Prop :=
  ∃ new, c'.obs = c.obs ++ new ∧ .shutdownWrite ∉ new

theorem Silent.of_obs (h : c'.obs = c.obs) : Silent c c' :=
  ⟨[], h.trans (List.append_nil _).symm, List.not_mem_nil⟩

theorem Silent.trans {c'' : TcpConnection} (h : Silent c c')
    (h' : Silent c' c'') : Silent c c'' := by
  obtain ⟨new, hobs, hnot⟩ := h
  obtain ⟨new', hobs', hnot'⟩ := h'
  refine ⟨new ++ new', ?_, fun hm => ?_⟩
  · rw [hobs', hobs, List.append_assoc]
  · rcases List.mem_append.1 hm with hm | hm
    · exact hnot hm
    · exact hnot' hm

theorem silent_log (c : TcpConnection) {o : ConnObs} (ho : o ≠ .shutdownWrite) :
    Silent c (c.log o) :=
  ⟨[o], rfl, fun hm => ho (List.mem_singleton.1 hm).symm⟩

/-- A change of interest is no half-close. -/
theorem silent_setChannel (c : TcpConnection) (ch : Channel) :
    Silent c (c.setChannel ch) :=
  ⟨[.updateChannel ch.events], rfl, by simp⟩

/-- Neither is anything that writing logs. -/
theorem Logged.silent {new : List ConnObs} (h : Logged c new c')
    (hout : ∀ o ∈ new, o.isOutput = true) : Silent c c' := by
  refine ⟨new, h.obs, fun hm => ?_⟩
  have ho := hout _ hm
  revert ho
  decide

-- ========================================================= connections down

/-- User code does nothing to a connection that is down but read its
input. -/
theorem userOp_down (h : c.state = .kDisconnected) (op : UserOp) :
    Holds (c.userOp op) fun c' =>
      c'.state = .kDisconnected ∧ c'.obs = c.obs := by
  have hne : (c.state == .kConnected) = false := by
    rw [h]
    rfl
  cases op with
  | send data w =>
      simp only [userOp, send, hne, Bool.false_eq_true, if_false]
      exact holds_ok ⟨h, rfl⟩
  | shutdown =>
      simp only [userOp, shutdown, hne, Bool.false_eq_true, if_false]
      exact holds_ok ⟨h, rfl⟩
  | retrieve len =>
      simp only [userOp]
      refine holds_bind (holds_mapError (Buffer.retrieve_ok
        (Nat.min_le_right ..))) fun buf _ => ?_
      exact holds_ok ⟨h, rfl⟩

theorem userOps_down (ops : List UserOp) (h : c.state = .kDisconnected) :
    Holds (run userOp c ops) fun c' =>
      c'.state = .kDisconnected ∧ c'.obs = c.obs := by
  induction ops generalizing c with
  | nil => exact holds_ok ⟨h, rfl⟩
  | cons op ops ih =>
      obtain ⟨c₁, hok, hdown, hobs⟩ := userOp_down h op
      obtain ⟨c', hrun, hdown', hobs'⟩ := ih hdown
      refine ⟨c', ?_, hdown', hobs'.trans hobs⟩
      rw [run_cons_ok ops hok]
      exact hrun

/-- The connection is taken down, with `connectionCb_`. -/
theorem disconnect_callConnectionCb {ops : List UserOp}
    (h : c.disconnect.callConnectionCb ops = .ok c') :
    c'.state = .kDisconnected ∧ Silent c c' := by
  have hdown : (c.disconnect.log
      (.connectionCb c.disconnect.connected)).state = .kDisconnected := rfl
  obtain ⟨c₁, hrun, hstate, hobs⟩ := userOps_down ops hdown
  unfold callConnectionCb at h
  rw [hrun] at h
  cases h
  have hset : Silent c c.disconnect := silent_setChannel ..
  have hcb : Silent c.disconnect
      (c.disconnect.log (.connectionCb c.disconnect.connected)) :=
    silent_log _ nofun
  exact ⟨hstate, (hset.trans hcb).trans (.of_obs hobs)⟩

theorem handleClose_down {ops : List UserOp}
    (h : c.handleClose ops = .ok c') :
    c'.state = .kDisconnected ∧ Silent c c' := by
  unfold handleClose at h
  obtain ⟨-, -, h⟩ := bind_ok_inv h
  obtain ⟨c₁, hcall, h⟩ := bind_ok_inv h
  cases h
  obtain ⟨hdown, hsilent⟩ := disconnect_callConnectionCb hcall
  have hfirst : Silent c (c.log .handleClose) := silent_log c nofun
  exact ⟨hdown, (hfirst.trans hsilent).trans (silent_log c₁ nofun)⟩

-- ================================================================ steps

theorem userOp_matched (h : Matched c) {op : UserOp}
    (hok : c.userOp op = .ok c') : Matched c' := by
  cases op with
  | send data w =>
      simp only [userOp, send] at hok
      split at hok
      · have hsent := (sendInLoop_ok c data w).of_ok hok
        exact h.of_balanced hsent.state hsent.balanced
      · cases hok
        exact h
  | shutdown =>
      cases hok
      unfold shutdown
      split
      next hup =>
        intro _
        apply balanced_shutdownInLoop
        apply h
        rw [beq_iff_eq.1 hup]
        decide
      next => exact h
  | retrieve len =>
      obtain ⟨buf, -, hok⟩ := bind_ok_inv hok
      cases hok
      exact h.congr rfl rfl rfl

theorem outputStep_matched (h : Matched c) {a : OutputAct}
    (hok : c.outputStep a = .ok c') : Matched c' := by
  cases a with
  | sendInLoop data w =>
      have hsent := (sendInLoop_ok c data w).of_ok hok
      exact h.of_balanced hsent.state hsent.balanced
  | handleWrite w =>
      have hwrote := (handleWrite_ok c w).of_ok hok
      exact h.of_balanced hwrote.state hwrote.balanced
  | shutdown =>
      simp only [outputStep] at hok
      split at hok
      next hup =>
        cases hok
        intro _
        apply h
        rw [beq_iff_eq.1 hup]
        decide
      next =>
        cases hok
        exact h
  | shutdownInLoop =>
      cases hok
      exact h.of_balanced (state_shutdownInLoop c) balanced_shutdownInLoop

theorem handleRead_matched (h : Matched c) {i : EventInput}
    (hmsg : i.onMessage = []) (hok : c.handleRead i = .ok c') :
    Matched c' := by
  cases hr : i.read with
  | failed e =>
      rw [handleRead_failed c hr] at hok
      cases hok
      exact h
  | read stream =>
      obtain ⟨buf, heq⟩ := handleRead_read c hr
      rw [heq, hmsg] at hok
      split at hok
      · cases hok
        exact h.congr rfl rfl rfl
      · exact matched_down (handleClose_down hok).1

theorem lifeStep_matched (h : Matched c) {a : LifeAct}
    (hok : c.lifeStep a = .ok c') : Matched c' := by
  cases a with
  | ConnectionEstablished =>
      obtain ⟨u, hreq, hok⟩ := bind_ok_inv hok
      cases hok
      intro _
      have hbal := h (by rw [require_inv hreq]; decide)
      show c.channel.enableReading.isWriting = true
        ↔ c.outputBuffer.content ≠ []
      rw [Channel.isWriting_enableReading]
      exact hbal
  | user op => exact userOp_matched h hok
  | output a => exact outputStep_matched h hok
  | handleRead read ops => exact handleRead_matched h rfl hok
  | handleClose ops => exact matched_down (handleClose_down hok).1
  | ConnectionDestroyed ops =>
      obtain ⟨c₁, hdown, hok⟩ := bind_ok_inv hok
      obtain ⟨-, -, hok⟩ := bind_ok_inv hok
      cases hok
      unfold takeDown at hdown
      split at hdown
      · exact matched_down (disconnect_callConnectionCb hdown).1
      · cases hdown
        exact h.congr rfl rfl rfl

-- ========================================================== half-closes

theorem stopWriting_frame (c : TcpConnection) :
    c.stopWriting.state = c.state
      ∧ c.stopWriting.outputBuffer = c.outputBuffer := by
  unfold stopWriting
  simp only
  split <;> exact ⟨rfl, rfl⟩

theorem stopWriting_silent (c : TcpConnection) : Silent c c.stopWriting := by
  unfold stopWriting
  simp only
  split
  · exact (silent_setChannel ..).trans (silent_log _ nofun)
  · exact silent_setChannel ..

/-- The step makes a half-close only through the call `t`, on which it
ends. -/
def CallsOnly (c : TcpConnection) (t : Option TcpConnection)
    (r : Except ConnAssert TcpConnection) : Prop :=
  match t with
  | some t => r = .ok t.shutdownInLoop
  | none => ∀ c', r = .ok c' → Silent c c'

theorem callsOnly_none {r : Except ConnAssert TcpConnection}
    (h : ∀ c', r = .ok c' → Silent c c') : CallsOnly c none r := h

theorem callsOnly_ok (h : Silent c c') : CallsOnly c none (.ok c') := by
  intro c'' hok
  cases hok
  exact h

/-- `handleWrite`, and the call it ends in when it has written all there
was of a connection that is being shut down. -/
theorem handleWrite_callsOnly (c : TcpConnection) (w : WriteResult) :
    CallsOnly c (c.handleWriteCall w) (c.handleWrite w) := by
  have hrefl : Silent c c := .of_obs rfl
  unfold handleWriteCall handleWrite
  split
  next =>
    cases w with
    | failed e => exact callsOnly_ok hrefl
    | wrote n =>
        simp only [WriteResult.on]
        split
        next =>
          obtain ⟨c₁, htake, htook⟩ := takeOutput_ok
            (c := c) (n := min n c.outputBuffer.readableBytes)
            (Nat.min_le_right ..)
          have hfirst : Silent c c₁ := ⟨_, htook.logged.obs, by simp⟩
          rw [htake, ok_bind]
          simp only
          by_cases hempty : (c₁.outputBuffer.readableBytes == 0) = true
          · rw [if_pos hempty, hempty, Bool.true_and, finishWrite_eq]
            split
            · exact rfl
            · exact callsOnly_ok (hfirst.trans (stopWriting_silent c₁))
          · rw [if_neg hempty, if_neg (by simp [hempty])]
            exact callsOnly_ok hfirst
        next => exact callsOnly_ok hrefl
  next => exact callsOnly_ok hrefl

/-- The buffer is empty when `handleWrite` calls `shutdownInLoop`. -/
theorem handleWriteCall_empty {w : WriteResult} {t : TcpConnection}
    (h : c.handleWriteCall w = some t) : t.outputBuffer.readableBytes = 0 := by
  unfold handleWriteCall at h
  split at h
  · split at h
    · split at h
      · split at h
        next c₁ htake =>
          split at h
          next hcond =>
            cases h
            rw [Bool.and_eq_true, beq_iff_eq] at hcond
            rw [(stopWriting_frame c₁).2]
            exact hcond.1
          next => cases h
        next => cases h
      · cases h
    · cases h
  · cases h

theorem sendInLoop_silent (c : TcpConnection) (data : List UInt8)
    (w : WriteResult) : CallsOnly c none (c.sendInLoop data w) := by
  apply callsOnly_none
  intro c' hok
  obtain ⟨new, hlog, hout⟩ := ((sendInLoop_ok c data w).of_ok hok).logged
  exact hlog.silent hout

theorem userOp_callsOnly (c : TcpConnection) (op : UserOp) :
    CallsOnly c (c.shutdownCall (.user op)) (c.userOp op) := by
  have hrefl : Silent c c := .of_obs rfl
  cases op with
  | send data w =>
      simp only [shutdownCall, userOp, send]
      split
      · exact sendInLoop_silent c data w
      · exact callsOnly_ok hrefl
  | shutdown =>
      simp only [shutdownCall, userOp, shutdown]
      split
      · exact rfl
      · exact callsOnly_ok hrefl
  | retrieve len =>
      apply callsOnly_none
      intro c' hok
      obtain ⟨buf, -, hok⟩ := bind_ok_inv hok
      cases hok
      exact .of_obs rfl

theorem outputStep_callsOnly (c : TcpConnection) (a : OutputAct) :
    CallsOnly c (c.shutdownCall (.output a)) (c.outputStep a) := by
  cases a with
  | sendInLoop data w => exact sendInLoop_silent c data w
  | handleWrite w => exact handleWrite_callsOnly c w
  | shutdown =>
      simp only [shutdownCall, outputStep]
      split
      · exact callsOnly_ok (.of_obs rfl)
      · exact callsOnly_ok (.of_obs rfl)
  | shutdownInLoop => exact rfl

theorem handleRead_silent {i : EventInput} (hmsg : i.onMessage = [])
    (hok : c.handleRead i = .ok c') : Silent c c' := by
  cases hr : i.read with
  | failed e =>
      rw [handleRead_failed c hr] at hok
      cases hok
      exact .of_obs rfl
  | read stream =>
      obtain ⟨buf, heq⟩ := handleRead_read c hr
      have hbuf : Silent c { c with inputBuffer := buf } := .of_obs rfl
      rw [heq, hmsg] at hok
      split at hok
      · cases hok
        exact hbuf.trans (silent_log _ nofun)
      · exact hbuf.trans (handleClose_down hok).2

theorem lifeStep_callsOnly (c : TcpConnection) (a : LifeAct) :
    CallsOnly c (c.shutdownCall a) (c.lifeStep a) := by
  cases a with
  | user op => exact userOp_callsOnly c op
  | output a => exact outputStep_callsOnly c a
  | ConnectionEstablished =>
      apply callsOnly_none
      intro c' hok
      obtain ⟨-, -, hok⟩ := bind_ok_inv hok
      cases hok
      have hset : Silent c ((c.setState .kConnected).setChannel
          c.channel.enableReading) := silent_setChannel ..
      exact hset.trans (silent_log _ nofun)
  | handleRead read ops =>
      apply callsOnly_none
      intro c' hok
      exact handleRead_silent rfl hok
  | handleClose ops =>
      apply callsOnly_none
      intro c' hok
      exact (handleClose_down hok).2
  | ConnectionDestroyed ops =>
      apply callsOnly_none
      intro c' hok
      obtain ⟨c₁, hdown, hok⟩ := bind_ok_inv hok
      obtain ⟨-, -, hok⟩ := bind_ok_inv hok
      cases hok
      have hlast : Silent c₁ (c₁.log .removeChannel) := silent_log c₁ nofun
      unfold takeDown at hdown
      split at hdown
      · exact (disconnect_callConnectionCb hdown).2.trans hlast
      · cases hdown
        exact hlast

/-- Where `shutdownInLoop` is called, it finds the interest it looks at
in agreement with the buffer. -/
theorem Matched.shutdownCall_empty (h : Matched c) {a : LifeAct}
    {t : TcpConnection} (hcall : c.shutdownCall a = some t) (hup : Up t)
    (hidle : t.channel.isWriting = false) :
    t.outputBuffer.readableBytes = 0 := by
  have hempty : Balanced t → t.outputBuffer.readableBytes = 0 := by
    intro hbal
    have hiff := balanced_iff.1 hbal
    rw [hidle] at hiff
    by_contra hne
    exact absurd (hiff.2 (by omega)) Bool.false_ne_true
  cases a with
  | user op =>
      cases op with
      | shutdown =>
          simp only [shutdownCall] at hcall
          split at hcall
          next hconn =>
            cases hcall
            apply hempty
            apply h
            rw [beq_iff_eq.1 hconn]
            decide
          next => cases hcall
      | send data w => cases hcall
      | retrieve len => cases hcall
  | output a =>
      cases a with
      | shutdownInLoop =>
          cases hcall
          exact hempty (h hup.ne_disconnected)
      | handleWrite w => exact handleWriteCall_empty hcall
      | sendInLoop data w => cases hcall
      | shutdown => cases hcall
  | ConnectionEstablished => cases hcall
  | handleRead read ops => cases hcall
  | handleClose ops => cases hcall
  | ConnectionDestroyed ops => cases hcall

-- ============================================================ callbacks

theorem run_user (ops : List UserOp) (c : TcpConnection) :
    run lifeStep c (ops.map .user) = run userOp c ops := run_map ..

/-- `handleRead` with its callbacks is a run of steps. -/
theorem handleRead_steps {i : EventInput} (h : c.handleRead i = .ok c') :
    ∃ acts, run lifeStep c acts = .ok c' := by
  cases hr : i.read with
  | failed e =>
      refine ⟨[.handleRead i.read i.onConnection], run_cons_ok [] ?_⟩
      rw [handleRead_failed c hr] at h
      rw [← h, lifeStep]
      exact handleRead_failed c hr
  | read stream =>
      simp only [handleRead, hr] at h
      obtain ⟨buf, hbuf, h⟩ := bind_ok_inv h
      split at h
      next hpos =>
        -- the operations in `messageCb_` follow
        refine ⟨.handleRead i.read i.onConnection :: i.onMessage.map .user, ?_⟩
        have hfirst : c.lifeStep (.handleRead i.read i.onConnection)
            = .ok ({ c with inputBuffer := buf }.log .messageCb) := by
          simp only [lifeStep, handleRead, hr, hbuf, ok_bind, if_pos hpos]
          rfl
        rw [run_cons_ok _ hfirst, run_user]
        exact h
      next hzero =>
        refine ⟨[.handleRead i.read i.onConnection], run_cons_ok [] ?_⟩
        simp only [lifeStep, handleRead, hr, hbuf, ok_bind, if_neg hzero]
        exact h

/-- `ConnectionEstablished` with its callback is a run of steps. -/
theorem ConnectionEstablished_steps {ops : List UserOp}
    (h : c.ConnectionEstablished ops = .ok c') :
    run lifeStep c (.ConnectionEstablished :: ops.map .user) = .ok c' := by
  obtain ⟨u, hreq, h⟩ := bind_ok_inv h
  have hfirst : c.lifeStep .ConnectionEstablished
      = .ok (((c.setState .kConnected).setChannel
          c.channel.enableReading).log (.connectionCb true)) := by
    simp only [lifeStep, ConnectionEstablished]
    rw [hreq, ok_bind]
    rfl
  rw [run_cons_ok _ hfirst, run_user]
  exact h

-- ============================================================ every run

/-- In every state a connection can reach, while it is up or half closed,
it asks for write events exactly if output is pending; and the next step,
whatever it is, makes a half-close only where it calls `shutdownInLoop`,
and there only with an empty output buffer. -/
theorem interest_iff_output_pending (fd : Nat)
    (writeCompleteCb highWaterMarkCb : Bool) {acts : List LifeAct}
    (h : run lifeStep (create fd writeCompleteCb highWaterMarkCb) acts
      = .ok c) :
    (Up c → (c.channel.isWriting = true ↔ 0 < c.outputBuffer.readableBytes))
      ∧ ∀ a, CallsOnly c (c.shutdownCall a) (c.lifeStep a)
        ∧ ∀ t, c.shutdownCall a = some t → Up t →
          t.channel.isWriting = false → t.outputBuffer.readableBytes = 0 := by
  have hmatched : Matched c := run_inv_all (I := Matched)
    (fun _ _ _ hs hok => lifeStep_matched hs hok)
    (matched_create fd writeCompleteCb highWaterMarkCb) h
  refine ⟨fun hup => balanced_iff.1 (hmatched hup.ne_disconnected),
    fun a => ⟨lifeStep_callsOnly c a, fun t hcall hup hidle => ?_⟩⟩
  exact hmatched.shutdownCall_empty hcall hup hidle

/-- A partial write, a shutdown while the rest is pending, and a write
that fails. -/
def shutdownPending : List LifeAct :=
  [.ConnectionEstablished, .user (.send [1, 2, 3] (.wrote 1)),
    .user .shutdown, .handleRead (.failed (.other 4)) [],
    .output (.handleWrite (.failed .EWOULDBLOCK))]

theorem interest_iff_output_shutdownPending : ∃ c,
    run lifeStep (create 9 true true) shutdownPending = .ok c
      ∧ c.state = .kDisconnecting ∧ c.outputBuffer.readableBytes = 2
      ∧ (Up c → (c.channel.isWriting = true ↔ 0 < c.outputBuffer.readableBytes))
      ∧ ∀ a, CallsOnly c (c.shutdownCall a) (c.lifeStep a)
        ∧ ∀ t, c.shutdownCall a = some t → Up t →
          t.channel.isWriting = false → t.outputBuffer.readableBytes = 0 := by
  obtain ⟨c, hrun, hview⟩ := map_ok_inv
    (g := fun c : TcpConnection => (c.state, c.outputBuffer.readableBytes))
    (c := (StateE.kDisconnecting, 2))
    (show (run lifeStep (create 9 true true) shutdownPending).map _ = .ok _ by
      decide +kernel)
  exact ⟨c, hrun, congrArg Prod.fst hview, congrArg Prod.snd hview,
    interest_iff_output_pending 9 true true hrun⟩

end TcpConnection

end Cobra
