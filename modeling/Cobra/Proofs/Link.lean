/-
Two connections that face each other deliver the stream: in every run,
what the user at one side has consumed, what its input buffer holds, what
is in flight and what the peer's output buffer holds are, in this order,
what the peer has sent. An end of the stream is seen only after all of it,
and the two loops alone bring what was sent to the other side.

# One side

`Kept` is what a side keeps by itself: its two accounts agree with its
buffers, and while it is up write interest goes with pending output, and a
half-close with none. `Works` is a step of the side that reads nothing: the
log has only grown, and after the half-close no byte leaves. All of sending,
writing, the user's calls and the closing is such a step. A read is
`takeIn`, and a step that works.

# Between the sides

`LinkInv` adds that the bytes received are the first of those the peer's
kernel has taken, and that a side which has seen the end has received them
all, from a peer that has shut down. The second survives the peer's
next steps because a shut side is frozen: it has nothing buffered, or it is
down, and a direct write fails with `EPIPE`, whose data `sendInLoop` gives
up.

# Delivery

Pending output comes with write interest (`Kept.up`), so one reported
`POLLOUT` empties the output buffer; from then on every `POLLIN` takes at
least one byte out of the network, and the bytes in flight are the measure
(`Link.receive_all`).
-/
import Cobra.Link
import Cobra.Proofs.TcpConnection

namespace Cobra

open Machine

-- ============================================================== sending

namespace TcpConnection

variable {c c' : TcpConnection}

/-- The direct write is not tried: its answer does not matter. -/
theorem writeDirectly_buffered {data : List UInt8} {w : WriteResult}
    (h : ¬ (!c.channel.isWriting && c.outputBuffer.readableBytes == 0) = true) :
    c.writeDirectly data w = (c, 0, data.length, false) := by
  unfold writeDirectly
  rw [if_neg h]

/-- A write that fails with `EPIPE` makes `sendInLoop` give the data up. -/
theorem writeDirectly_epipe (data : List UInt8)
    (h : (!c.channel.isWriting && c.outputBuffer.readableBytes == 0) = true) :
    c.writeDirectly data (.failed .EPIPE) = (c, 0, data.length, true) := by
  unfold writeDirectly
  rw [if_pos h]
  rfl

/-- A direct write that is no fault, or none at all. -/
theorem noFault_or_buffered {data : List UInt8} {w : WriteResult}
    (h : (c.writeDirectly data w).2.2.2 = false) :
    w.NoFault ∨
      ¬ (!c.channel.isWriting && c.outputBuffer.readableBytes == 0) = true := by
  by_cases hdirect :
      (!c.channel.isWriting && c.outputBuffer.readableBytes == 0) = true
  · left
    refine ⟨?_, ?_⟩
    · rintro rfl
      rw [writeDirectly_epipe data hdirect] at h
      cases h
    · rintro rfl
      unfold writeDirectly at h
      rw [if_pos hdirect] at h
      cases h
  · exact .inr hdirect

/-- `sendInLoop` puts what it takes on behind the rest of the stream. -/
theorem sendInLoop_taken (c : TcpConnection) (data : List UInt8)
    (w : WriteResult) :
    Holds (c.sendInLoop data w) fun c' =>
      Sent c data w c' ∧ c'.stream = c.stream ++ c.taken data w := by
  obtain ⟨c', hok, hsent⟩ := sendInLoop_ok c data w
  refine ⟨c', hok, hsent, ?_⟩
  by_cases hdown : c.state = .kDisconnected
  · rw [sendInLoop_down hdown] at hok
    cases hok
    unfold taken
    rw [hdown]
    exact (List.append_nil _).symm
  have hne : (c.state == .kDisconnected) = false := beq_eq_false_iff_ne.2 hdown
  unfold taken
  rw [hne, Bool.false_or]
  cases hfault : (c.writeDirectly data w).2.2.2 with
  | true =>
      -- the data is given up, and nothing else happens
      have hsame := ((writeDirectly_direct c data w).fault hfault).2
      unfold sendInLoop at hok
      rw [if_neg (by rw [hne]; exact Bool.false_ne_true)] at hok
      simp only [hfault, Bool.not_true, Bool.false_and] at hok
      cases hok
      rw [hsame]
      exact (List.append_nil _).symm
  | false =>
      rcases noFault_or_buffered hfault with hw | hbuffered
      · exact hsent.stream hdown (.inl hw)
      · -- the answer is not looked at, so it may as well be another one
        have hother : c.sendInLoop data (.wrote 0) = .ok c' := by
          rw [← hok]
          unfold sendInLoop
          rw [writeDirectly_buffered hbuffered,
            writeDirectly_buffered hbuffered]
        have hsent' := (sendInLoop_ok c data (.wrote 0)).of_ok hother
        exact hsent'.stream hdown (.inl ⟨nofun, nofun⟩)

/-- With nothing buffered, a send that meets `EPIPE` does nothing. -/
theorem sendInLoop_epipe (hwriting : c.channel.isWriting = false)
    (hout : c.outputBuffer.content = []) (data : List UInt8) :
    c.sendInLoop data (.failed .EPIPE) = .ok c := by
  have hdirect : (!c.channel.isWriting
      && c.outputBuffer.readableBytes == 0) = true := by
    rw [hwriting, Buffer.content_eq_nil.1 hout]
    rfl
  unfold sendInLoop
  rw [writeDirectly_epipe data hdirect]
  split
  · rfl
  · rfl

end TcpConnection

-- ============================================================= one side

namespace Peer

open TcpConnection

variable {p p' : Peer}

/-- What a side keeps by itself. -/
structure Kept (p : Peer) : Prop where
  out : p.conn.stream = p.sent
  inp : p.consumed ++ p.conn.inputBuffer.content = p.received
  up : Up p.conn → p.conn.Balanced ∧ p.conn.channel.Reading
    ∧ (p.shut = true → p.conn.outputBuffer.content = [])
  down : ¬ Up p.conn →
    p.conn.state = .kDisconnected ∧ p.conn.channel.isNoneEvent = true

/-- A step that reads nothing. -/
structure Works (p p' : Peer) : Prop where
  kept : p.Kept → p'.Kept
  obs : p.conn.obs <+: p'.conn.obs
  frozen : p.Kept → p.shut = true → p'.output = p.output
  received : p'.received = p.received
  ended : p'.ended = p.ended

theorem Works.refl (p : Peer) : Works p p :=
  ⟨id, List.prefix_refl _, fun _ _ => rfl, rfl, rfl⟩

theorem shut_mono (h : p.conn.obs <+: p'.conn.obs) (hs : p.shut = true) :
    p'.shut = true := by
  unfold shut at hs ⊢
  rw [List.contains_iff_mem] at hs ⊢
  exact h.subset hs

theorem Works.trans {p'' : Peer} (h : Works p p') (h' : Works p' p'') :
    Works p p'' where
  kept hk := h'.kept (h.kept hk)
  obs := h.obs.trans h'.obs
  frozen hk hs :=
    (h'.frozen (h.kept hk) (shut_mono h.obs hs)).trans (h.frozen hk hs)
  received := h'.received.trans h.received
  ended := h'.ended.trans h.ended

/-- Kept by a shut side: nothing goes out of it any more. -/
theorem Kept.idle (h : p.Kept) (hs : p.shut = true) :
    p.conn.channel.isWriting = false := by
  by_cases hup : Up p.conn
  · obtain ⟨hbal, -, hout⟩ := h.up hup
    cases hw : p.conn.channel.isWriting with
    | false => rfl
    | true => exact absurd (hout hs) (hbal.1 hw)
  · exact isWriting_of_isNoneEvent (h.down hup).2

/-- More of the log, with no `ShutdownWrite` in it. -/
theorem shut_of_logged {new : List ConnObs}
    (hobs : p'.conn.obs = p.conn.obs ++ new) (hnew : .shutdownWrite ∉ new) :
    p'.shut = p.shut := by
  unfold shut
  rw [hobs, Bool.eq_iff_iff, List.contains_iff_mem, List.contains_iff_mem,
    List.mem_append]
  exact or_iff_left hnew

theorem not_shutdownWrite_of_output {new : List ConnObs}
    (h : ∀ o ∈ new, o.isOutput = true) : .shutdownWrite ∉ new := by
  intro hm
  have ho := h _ hm
  cases ho

-- ============================================================== writing

/-- What a write answers a side that has shut down. -/
theorem writeAnswer_shut (h : p.shut = true) (w : WriteResult) :
    p.writeAnswer w = .failed .EPIPE := if_pos h

theorem sendInLoop_works (p : Peer) (data : List UInt8) (w : WriteResult) :
    Holds (p.sendInLoop data w) (Works p) := by
  unfold sendInLoop
  obtain ⟨c', hok, hsent, hstream⟩ :=
    sendInLoop_taken p.conn data (p.writeAnswer w)
  simp only [hok, ok_bind]
  obtain ⟨new, hlog, hnew⟩ := hsent.logged
  have hshut : ∀ q : Peer, q.conn = c' → q.shut = p.shut := fun q hq =>
    shut_of_logged (hq ▸ hlog.obs) (not_shutdownWrite_of_output hnew)
  -- a shut side is not changed by the send
  have hsame : p.Kept → p.shut = true → c' = p.conn := by
    intro hk hs
    rw [writeAnswer_shut hs] at hok
    by_cases hup : Up p.conn
    · rw [sendInLoop_epipe (hk.idle hs) ((hk.up hup).2.2 hs)] at hok
      cases hok
      rfl
    · rw [sendInLoop_down (hk.down hup).1] at hok
      cases hok
      rfl
  refine holds_ok ⟨fun hk => ⟨?_, ?_, fun hup => ?_, fun hup => ?_⟩, ?_, ?_,
    rfl, rfl⟩
  · show c'.stream = p.sent ++ _
    rw [hstream, hk.out]
  · show p.consumed ++ c'.inputBuffer.content = p.received
    rw [hsent.inputBuffer]
    exact hk.inp
  · have hup' : Up p.conn := hup.congr hsent.state.symm
    obtain ⟨hbal, hread, hout⟩ := hk.up hup'
    refine ⟨hsent.balanced hbal, hsent.reading hread, fun hs => ?_⟩
    rw [hshut _ rfl] at hs
    show c'.outputBuffer.content = []
    rw [hsame hk hs]
    exact hout hs
  · have hdown := hk.down fun h => hup (h.congr hsent.state)
    show c'.state = _ ∧ c'.channel.isNoneEvent = true
    rw [sendInLoop_down hdown.1] at hok
    cases hok
    exact hdown
  · show p.conn.obs <+: c'.obs
    rw [hlog.obs]
    exact List.prefix_append ..
  · intro hk hs
    show accepted c'.obs = accepted p.conn.obs
    rw [hsame hk hs]

theorem handleWrite_works (p : Peer) (w : WriteResult) :
    Holds (p.handleWrite w) (Works p) := by
  unfold handleWrite
  obtain ⟨c', hok, hwrote⟩ := handleWrite_ok p.conn (p.writeAnswer w)
  simp only [hok, ok_bind]
  obtain ⟨new, hnew, hlog⟩ := hwrote.logged
  have hobs : p.conn.obs <+: c'.obs := by
    rcases hlog with ⟨-, hlog⟩ | ⟨-, hlog⟩
    · rw [hlog.obs]
      exact List.prefix_append ..
    · rw [hlog.obs]
      exact List.prefix_append ..
  have hidle : p.conn.channel.isWriting = false → c' = p.conn := by
    intro hw
    rw [handleWrite_idle hw] at hok
    cases hok
    rfl
  refine holds_ok ⟨fun hk => ⟨?_, ?_, fun hup => ?_, fun hup => ?_⟩, hobs, ?_,
    rfl, rfl⟩
  · show c'.stream = p.sent
    rw [hwrote.stream]
    exact hk.out
  · show p.consumed ++ c'.inputBuffer.content = p.received
    rw [hwrote.inputBuffer]
    exact hk.inp
  · obtain ⟨hbal, hread, hout⟩ := hk.up (hup.congr hwrote.state.symm)
    refine ⟨hwrote.balanced hbal, hwrote.reading hread, fun hs => ?_⟩
    show c'.outputBuffer.content = []
    rcases hlog with ⟨hdrains, -⟩ | ⟨-, hlog⟩
    · exact hwrote.drained hdrains
    · -- nothing of the log is a half-close, so the side was shut before
      have hshut : (p.setConn c').shut = p.shut :=
        shut_of_logged hlog.obs (not_shutdownWrite_of_output hnew)
      rw [hshut] at hs
      rw [hidle (hk.idle hs)]
      exact hout hs
  · have hdown := hk.down fun h => hup (h.congr hwrote.state)
    show c'.state = _ ∧ c'.channel.isNoneEvent = true
    rw [hidle (isWriting_of_isNoneEvent hdown.2)]
    exact hdown
  · intro hk hs
    show accepted c'.obs = accepted p.conn.obs
    rw [hidle (hk.idle hs)]

-- ============================================== the log and the closing

/-- An entry about neither bytes nor the half-close. -/
theorem log_works (p : Peer) {o : ConnObs} (hacc : o.bytes = [])
    (hshut : o ≠ .shutdownWrite) : Works p (p.setConn (p.conn.log o)) := by
  have hsame : (p.setConn (p.conn.log o)).shut = p.shut :=
    shut_of_logged rfl fun hm => hshut (List.mem_singleton.1 hm).symm
  have hout : accepted (p.conn.obs ++ [o]) = accepted p.conn.obs := by
    rw [accepted_append]
    unfold accepted
    rw [List.flatMap_singleton, hacc, List.append_nil]
  refine ⟨fun hk => ⟨?_, hk.inp, fun hup => ?_, hk.down⟩,
    List.prefix_append .., fun _ _ => hout, rfl, rfl⟩
  · show accepted (p.conn.obs ++ [o]) ++ p.conn.outputBuffer.content = p.sent
    rw [hout]
    exact hk.out
  · rw [hsame]
    exact hk.up hup

theorem shutdownInLoop_works (p : Peer) :
    Works p (p.setConn p.conn.shutdownInLoop) := by
  cases hw : p.conn.channel.isWriting with
  | true =>
      rw [shutdownInLoop_of_writing hw]
      exact .refl p
  | false =>
      rw [shutdownInLoop_eq hw]
      have hout : accepted (p.conn.obs ++ [.shutdownWrite])
          = accepted p.conn.obs := by
        rw [accepted_append]
        exact List.append_nil _
      refine ⟨fun hk => ⟨?_, hk.inp, fun hup => ?_, hk.down⟩,
        List.prefix_append .., fun _ _ => hout, rfl, rfl⟩
      · show accepted (p.conn.obs ++ [_]) ++ p.conn.outputBuffer.content = _
        rw [hout]
        exact hk.out
      · obtain ⟨hbal, hread, -⟩ := hk.up hup
        refine ⟨hbal, hread, fun _ => ?_⟩
        -- nothing is being written, so nothing is pending
        by_contra hne
        exact absurd (hbal.2 hne) (by rw [hw]; exact Bool.false_ne_true)

/-- `shutdown` up to the functor. -/
theorem setState_works (h : p.conn.state = .kConnected) :
    Works p (p.setConn (p.conn.setState .kDisconnecting)) := by
  have hup : Up p.conn := .inl h
  exact ⟨fun hk => ⟨hk.out, hk.inp, fun _ => hk.up hup,
    fun hno => absurd (.inr rfl) hno⟩, List.prefix_refl _, fun _ _ => rfl, rfl,
    rfl⟩

theorem disconnect_works (p : Peer) : Works p (p.setConn p.conn.disconnect) := by
  have hout : accepted (p.conn.obs ++ [.updateChannel kNoneEvent])
      = accepted p.conn.obs := by
    rw [accepted_append]
    exact List.append_nil _
  refine ⟨fun hk => ⟨?_, hk.inp, fun hup => ?_, fun _ => ?_⟩,
    List.prefix_append .., fun _ _ => hout, rfl, rfl⟩
  · show accepted (p.conn.obs ++ [.updateChannel kNoneEvent]) ++ _ = p.sent
    rw [hout]
    exact hk.out
  · exact absurd rfl hup.ne_disconnected
  · exact ⟨rfl, Channel.isNoneEvent_disableAll _⟩

-- ========================================================== user's calls

/-- The bytes the user takes are the first of those there are. -/
theorem retrieve_works (p : Peer) (len : Nat) :
    Holds (p.userOp (.retrieve len)) (Works p) := by
  simp only [userOp, TcpConnection.userOp]
  obtain ⟨buf, hok, hbuf⟩ := Buffer.retrieve_ok
    (Nat.min_le_right len p.conn.inputBuffer.readableBytes)
  simp only [hok, Except.mapError, ok_bind]
  refine holds_ok ⟨fun hk => ⟨hk.out, ?_, hk.up, hk.down⟩,
    List.prefix_refl _, fun _ _ => rfl, rfl, rfl⟩
  show (p.consumed ++ p.conn.inputBuffer.content.take len) ++ buf.content
    = p.received
  rw [hbuf, ← Buffer.length_content, List.take_eq_take_min,
    List.append_assoc, List.take_append_drop]
  exact hk.inp

theorem userOp_works (p : Peer) (op : UserOp) :
    Holds (p.userOp op) (Works p) := by
  cases op with
  | send data w =>
      simp only [userOp]
      split
      · exact sendInLoop_works p data w
      · exact holds_ok (.refl p)
  | shutdown =>
      apply holds_ok
      unfold shutdown
      split
      next h =>
        exact (setState_works (beq_iff_eq.1 h)).trans
          (shutdownInLoop_works (p.setConn _))
      next => exact .refl p
  | retrieve len => exact retrieve_works p len

/-- User code reads nothing from the network. -/
theorem userOps_works : ∀ (ops : List UserOp) (p : Peer),
    Holds (run userOp p ops) (Works p) := by
  intro ops
  induction ops with
  | nil =>
      intro p
      exact holds_ok (.refl p)
  | cons op ops ih =>
      intro p
      obtain ⟨p₁, hok, hw⟩ := userOp_works p op
      obtain ⟨p', hrun, hw'⟩ := ih p₁
      exact ⟨p', by rw [run_cons_ok ops hok]; exact hrun, hw.trans hw'⟩

theorem callConnectionCb_works (p : Peer) (ops : List UserOp) :
    Holds (p.callConnectionCb ops) (Works p) := by
  have hlog : Works p
      (p.setConn (p.conn.log (.connectionCb p.conn.connected))) :=
    log_works p rfl nofun
  exact holds_mono (userOps_works ops _) fun _ hw => hlog.trans hw

theorem callMessageCb_works (p : Peer) (ops : List UserOp) :
    Holds (p.callMessageCb ops) (Works p) := by
  have hlog : Works p (p.setConn (p.conn.log .messageCb)) :=
    log_works p rfl nofun
  exact holds_mono (userOps_works ops _) fun _ hw => hlog.trans hw

theorem handleClose_works {ops : List UserOp}
    (h : p.handleClose ops = .ok p') : Works p p' := by
  unfold handleClose at h
  obtain ⟨-, -, h⟩ := bind_ok_inv h
  obtain ⟨p₁, hcall, h⟩ := bind_ok_inv h
  cases h
  have henter : Works p (p.setConn (p.conn.log .handleClose)) :=
    log_works p rfl nofun
  have hclosed : Works p₁ (p₁.setConn (p₁.conn.log .closeCb)) :=
    log_works p₁ rfl nofun
  exact ((henter.trans (disconnect_works _)).trans
    ((callConnectionCb_works _ ops).of_ok hcall)).trans hclosed

theorem outputStep_works (p : Peer) (a : OutputAct) :
    Holds (p.outputStep a) (Works p) := by
  cases a with
  | sendInLoop data w => exact sendInLoop_works p data w
  | handleWrite w => exact handleWrite_works p w
  | shutdown =>
      simp only [outputStep, TcpConnection.outputStep]
      split
      next h => exact holds_ok (setState_works (beq_iff_eq.1 h))
      next => exact holds_ok (.refl p)
  | shutdownInLoop => exact holds_ok (shutdownInLoop_works p)

-- ============================================================== reading

/-- A step that finds `arrived`: it takes some of it, from the front, and
sees the end only if nothing is left and the peer has shut down. -/
structure Turns (arrived : List UInt8) (eof : Bool) (p p' : Peer) : Prop where
  kept : p.Kept → p'.Kept
  obs : p.conn.obs <+: p'.conn.obs
  frozen : p.Kept → p.shut = true → p'.output = p.output
  received : ∃ data, data <+: arrived ∧ p'.received = p.received ++ data
  ended : p'.ended = true → p.ended = true ∨ (arrived = [] ∧ eof = true)
  stays : p.ended = true → p'.ended = true

variable {arrived : List UInt8} {eof : Bool}

theorem Works.turns (h : Works p p') : Turns arrived eof p p' :=
  ⟨h.kept, h.obs, h.frozen,
    ⟨[], List.nil_prefix, by rw [h.received, List.append_nil]⟩,
    fun he => .inl (by rw [← h.ended, he]), fun he => by rw [h.ended, he]⟩

theorem Works.trans_turns {p'' : Peer} (h : Works p p')
    (h' : Turns arrived eof p' p'') : Turns arrived eof p p'' where
  kept hk := h'.kept (h.kept hk)
  obs := h.obs.trans h'.obs
  frozen hk hs :=
    (h'.frozen (h.kept hk) (shut_mono h.obs hs)).trans (h.frozen hk hs)
  received := by
    rw [← h.received]
    exact h'.received
  ended he := by
    rw [← h.ended]
    exact h'.ended he
  stays he := h'.stays (by rw [h.ended, he])

theorem Turns.trans_works {p'' : Peer} (h : Turns arrived eof p p')
    (h' : Works p' p'') : Turns arrived eof p p'' where
  kept hk := h'.kept (h.kept hk)
  obs := h.obs.trans h'.obs
  frozen hk hs :=
    (h'.frozen (h.kept hk) (shut_mono h.obs hs)).trans (h.frozen hk hs)
  received := by
    rw [h'.received]
    exact h.received
  ended he := h.ended (by rw [← h'.ended]; exact he)
  stays he := by
    rw [h'.ended]
    exact h.stays he

/-- The bytes that come go behind those that are buffered. -/
theorem takeIn_turns {data : List UInt8} {buf : Buffer}
    (hbuf : buf.content = p.conn.inputBuffer.content ++ data)
    (hdata : data <+: arrived)
    (hend : data = [] → arrived = [] ∧ eof = true) :
    Turns arrived eof p (p.takeIn data buf) := by
  refine ⟨fun hk => ⟨hk.out, ?_, hk.up, hk.down⟩, List.prefix_refl _,
    fun _ _ => rfl, ⟨data, hdata, rfl⟩, fun he => ?_, fun he => ?_⟩
  · show p.consumed ++ buf.content = p.received ++ data
    rw [hbuf, ← List.append_assoc, hk.inp]
  · have he' : (p.ended || data.isEmpty) = true := he
    rw [Bool.or_eq_true, List.isEmpty_iff] at he'
    exact he'.imp id hend
  · show (p.ended || data.isEmpty) = true
    rw [he, Bool.true_or]

/-- The end of the stream comes last, and there is no empty read before
it. -/
theorem readAnswer_read {r : ReadResult} {stream : List UInt8}
    (h : readAnswer arrived eof r = .read stream) :
    stream <+: arrived ∧ (stream = [] → arrived = [] ∧ eof = true) := by
  cases r with
  | failed e => cases h
  | read r =>
      simp only [readAnswer] at h
      split at h
      next hnil =>
        split at h
        next heof =>
          cases h
          exact ⟨List.nil_prefix, fun _ => ⟨hnil, heof⟩⟩
        next => cases h
      next hsome =>
        cases h
        refine ⟨List.take_prefix .., fun hnil => ?_⟩
        rw [List.take_eq_nil_iff] at hnil
        rcases hnil with hnil | hnil
        · omega
        · exact absurd hnil hsome

theorem handleRead_turns {i : EventInput} {r : ReadResult}
    (hi : i.read = readAnswer arrived eof r) (h : p.handleRead i = .ok p') :
    Turns arrived eof p p' := by
  unfold handleRead at h
  cases hr : i.read with
  | failed e =>
      simp only [hr] at h
      cases h
      exact (Works.refl p).turns
  | read stream =>
      obtain ⟨hpre, hend⟩ := readAnswer_read (hi.symm.trans hr)
      have hpos : 0 < p.conn.inputBuffer.readvSize := by
        unfold Buffer.readvSize Buffer.kExtraSize
        split <;> omega
      obtain ⟨buf, hbuf, hcontent⟩ := Buffer.readFd_ok
        (List.length_take_le p.conn.inputBuffer.readvSize stream)
      simp only [hr, hbuf, Except.mapError, ok_bind] at h
      have htake : Turns arrived eof p (p.takeIn _ buf) :=
        takeIn_turns hcontent ((List.take_prefix ..).trans hpre) fun hnil => by
          rw [List.take_eq_nil_iff] at hnil
          exact hend (hnil.resolve_left (Nat.pos_iff_ne_zero.1 hpos))
      split at h
      · exact htake.trans_works ((callMessageCb_works _ _).of_ok h)
      · exact htake.trans_works (handleClose_works h)

theorem handleEventWithGuard_turns {i : EventInput} {r : ReadResult}
    (hi : i.read = readAnswer arrived eof r)
    (h : p.handleEventWithGuard i = .ok p') : Turns arrived eof p p' := by
  unfold handleEventWithGuard at h
  obtain ⟨p₁, hclose, h⟩ := bind_ok_inv h
  obtain ⟨p₂, hread, h⟩ := bind_ok_inv h
  have h₁ : Works p p₁ := guarded_inv (.refl p) handleClose_works hclose
  have h₂ : Turns arrived eof p₁ p₂ :=
    guarded_inv (Works.refl p₁).turns (handleRead_turns hi) hread
  have h₃ : Works p₂ p' := guarded_inv (.refl p₂)
    (fun h => (handleWrite_works p₂ i.write).of_ok h) h
  exact (h₁.trans_turns h₂).trans_works h₃

/-- The poller and the loop's bookkeeping touch neither stream. -/
theorem events_works {e : ConnEvents} (hobs : e.conn.obs = p.conn.obs)
    (hstate : e.conn.state = p.conn.state)
    (hevents : e.conn.channel.events = p.conn.channel.events)
    (hin : e.conn.inputBuffer = p.conn.inputBuffer)
    (hout : e.conn.outputBuffer = p.conn.outputBuffer) :
    Works p { p with events := e } := by
  have hshut : Peer.shut { p with events := e } = p.shut := by
    unfold shut conn
    rw [hobs]
    rfl
  refine ⟨fun hk => ⟨?_, ?_, fun hup => ?_, fun hup => ?_⟩, ?_, fun _ _ => ?_,
    rfl, rfl⟩
  · show accepted e.conn.obs ++ e.conn.outputBuffer.content = p.sent
    rw [hobs, hout]
    exact hk.out
  · show p.consumed ++ e.conn.inputBuffer.content = p.received
    rw [hin]
    exact hk.inp
  · have hup' : Up p.conn := hup.congr hstate.symm
    rw [hshut]
    unfold TcpConnection.Balanced Channel.isWriting Channel.Reading conn
    rw [hevents, hout]
    exact hk.up hup'
  · have hdown := hk.down fun h => hup (h.congr hstate)
    unfold Channel.isNoneEvent conn
    rw [hstate, hevents]
    exact hdown
  · show p.conn.obs <+: e.conn.obs
    rw [hobs]
  · show accepted e.conn.obs = accepted p.conn.obs
    rw [hobs]

theorem step_turns {a : EventAct} (h : p.step arrived eof a = .ok p') :
    Turns arrived eof p p' := by
  cases a with
  | poll revents =>
      simp only [step] at h
      split at h
      · cases h
        have hpoll : Works p
            { p with events := ⟨ConnEvents.setRevents p.conn revents, true⟩ } :=
          events_works rfl rfl rfl rfl rfl
        exact hpoll.turns
      · cases h
        exact (Works.refl p).turns
  | handleEvent i =>
      simp only [step] at h
      split at h
      · obtain ⟨p₁, hev, h⟩ := bind_ok_inv h
        cases h
        exact (handleEventWithGuard_turns rfl hev).trans_works
          (events_works rfl rfl rfl rfl rfl)
      · cases h
        exact (Works.refl p).turns
  | user op => exact ((userOp_works p op).of_ok h).turns
  | output a => exact ((outputStep_works p a).of_ok h).turns

theorem kept_create (fd : Nat) (writeCompleteCb highWaterMarkCb : Bool) :
    (create fd writeCompleteCb highWaterMarkCb).Kept := by
  refine ⟨?_, ?_, fun _ => ⟨?_, ?_, fun h => ?_⟩, fun h => ?_⟩
  · exact Buffer.content_empty
  · exact Buffer.content_empty
  · refine iff_of_false ?_ (fun h => h Buffer.content_empty)
    show ¬ (Channel.create fd).enableReading.isWriting = true
    rw [Channel.isWriting_enableReading, Channel.isWriting_create]
    exact Bool.false_ne_true
  · exact Channel.reading_enableReading _
  · cases h
  · exact absurd (.inl rfl) h

end Peer

-- ============================================================= the link

namespace Link

open TcpConnection

variable {l l' : Link} {s : Side}

theorem other_other (s : Side) : s.other.other = s := by cases s <;> rfl

theorem eq_or_eq_other (s t : Side) : t = s ∨ t = s.other := by
  cases s <;> cases t <;> decide

@[simp] theorem peer_setPeer (l : Link) (s : Side) (p : Peer) :
    (l.setPeer s p).peer s = p := by cases s <;> rfl

@[simp] theorem peer_setPeer_other (l : Link) (s : Side) (p : Peer) :
    (l.setPeer s p).peer s.other = l.peer s.other := by cases s <;> rfl

/-- What holds between the sides, and at each of them. -/
structure LinkInv (l : Link) : Prop where
  kept : ∀ s, (l.peer s).Kept
  received : ∀ s, (l.peer s).received <+: (l.peer s.other).output
  ended : ∀ s, (l.peer s).ended = true → (l.peer s.other).shut = true
    ∧ (l.peer s).received = (l.peer s.other).output

/-- Received so far, and still on the way. -/
theorem LinkInv.received_inFlight (h : LinkInv l) (s : Side) :
    (l.peer s).received ++ l.inFlight s = (l.peer s.other).output :=
  (List.prefix_append_drop (h.received s)).symm

/-- The stream to the side, from the user who reads it to the one who
writes it. -/
theorem LinkInv.account (h : LinkInv l) (s : Side) :
    (l.peer s).consumed ++ (l.peer s).conn.inputBuffer.content
        ++ l.inFlight s ++ (l.peer s.other).conn.outputBuffer.content
      = (l.peer s.other).sent := by
  rw [(h.kept s).inp, h.received_inFlight s]
  exact (h.kept s.other).out

theorem output_mono {p p' : Peer} (h : p.conn.obs <+: p'.conn.obs) :
    p.output <+: p'.output := by
  obtain ⟨new, hnew⟩ := h
  unfold Peer.output
  rw [← hnew, accepted_append]
  exact List.prefix_append ..

theorem step_inv {a : Side × EventAct} (h : LinkInv l)
    (hok : l.step a = .ok l') : LinkInv l' := by
  obtain ⟨s, a⟩ := a
  obtain ⟨p, hp, heq⟩ := bind_ok_inv hok
  cases heq
  have ht := Peer.step_turns hp
  obtain ⟨data, hdata, hreceived⟩ := ht.received
  refine ⟨fun t => ?_, fun t => ?_, fun t he => ?_⟩
  · rcases eq_or_eq_other s t with rfl | rfl
    · rw [peer_setPeer]
      exact ht.kept (h.kept t)
    · rw [peer_setPeer_other]
      exact h.kept s.other
  · rcases eq_or_eq_other s t with rfl | rfl
    · rw [peer_setPeer, peer_setPeer_other, hreceived,
        ← h.received_inFlight t, List.prefix_append_right_inj]
      exact hdata
    · rw [peer_setPeer_other, other_other, peer_setPeer]
      have hbefore := h.received s.other
      rw [other_other] at hbefore
      exact hbefore.trans (output_mono ht.obs)
  · rcases eq_or_eq_other s t with rfl | rfl
    · rw [peer_setPeer] at he ⊢
      rw [peer_setPeer_other, hreceived]
      have hflight := h.received_inFlight t
      have hshut : (l.peer t.other).shut = true ∧ l.inFlight t = [] := by
        rcases ht.ended he with he | ⟨hnil, heof⟩
        · obtain ⟨hshut, heq⟩ := h.ended t he
          rw [← heq] at hflight
          exact ⟨hshut, List.append_right_eq_self.1 hflight⟩
        · exact ⟨heof, hnil⟩
      -- nothing was in flight, so nothing was read
      have hdata' : data <+: l.inFlight t := hdata
      rw [hshut.2, List.prefix_nil] at hdata'
      rw [hshut.2, List.append_nil] at hflight
      rw [hdata', List.append_nil]
      exact ⟨hshut.1, hflight⟩
    · rw [peer_setPeer_other] at he ⊢
      rw [other_other, peer_setPeer]
      obtain ⟨hshut, heq⟩ := h.ended s.other he
      rw [other_other] at hshut heq
      refine ⟨Peer.shut_mono ht.obs hshut, ?_⟩
      rw [ht.frozen (h.kept s) hshut]
      exact heq

variable {fd : Side → Nat} {writeCompleteCb highWaterMarkCb : Side → Bool}

theorem linkInv_create :
    LinkInv (create fd writeCompleteCb highWaterMarkCb) := by
  refine ⟨fun s => ?_, fun s => ?_, fun s he => ?_⟩
  · cases s <;> exact Peer.kept_create ..
  · cases s <;> exact List.nil_prefix
  · cases s <;> cases he

theorem run_linkInv {acts : List (Side × EventAct)}
    (h : run step (create fd writeCompleteCb highWaterMarkCb) acts = .ok l) :
    LinkInv l :=
  run_inv_all (fun _ _ _ hi => step_inv hi) linkInv_create h

-- ========================================================== safety

/-- No byte is lost, duplicated or reordered between the two users: what
one has consumed, what its input buffer holds, what is in flight and what
the peer's output buffer holds are what the peer has sent. -/
theorem delivered_eq_sent (acts : List (Side × EventAct))
    (h : run step (create fd writeCompleteCb highWaterMarkCb) acts = .ok l)
    (s : Side) :
    (l.peer s).consumed ++ (l.peer s).conn.inputBuffer.content
        ++ l.inFlight s ++ (l.peer s.other).conn.outputBuffer.content
      = (l.peer s.other).sent :=
  (run_linkInv h).account s

/-- The client sends three bytes and shuts down with two of them still to
be written; the server reads one, and its user takes it. -/
def shutdownPending : List (Side × EventAct) :=
  [(.client, .user (.send [1, 2, 3] (.wrote 1))),
    (.client, .user .shutdown),
    (.server, .poll POLLIN),
    (.server, .handleEvent
      ⟨.read [0], .failed .EWOULDBLOCK, [.retrieve 1], []⟩)]

/-- The client writes the rest, which half-closes its side; the server
reads the rest, and then the end. -/
def shutdownDone : List (Side × EventAct) :=
  [(.client, .poll POLLOUT),
    (.client, .handleEvent ⟨.failed .EWOULDBLOCK, .wrote 2, [], []⟩),
    (.server, .poll POLLIN),
    (.server, .handleEvent
      ⟨.read [0, 0], .failed .EWOULDBLOCK, [.retrieve 1], []⟩),
    (.server, .poll (POLLIN ||| POLLRDHUP)),
    (.server, .handleEvent ⟨.read [], .failed .EWOULDBLOCK, [], []⟩)]

/-- Two connections with all their callbacks. -/
def pair : Link := create (fun _ => 9) (fun _ => true) fun _ => true

theorem delivered_shutdownPending :
    ∃ l, run step pair shutdownPending = .ok l
      ∧ (l.peer .client).sent = [1, 2, 3] ∧ l.inFlight .server = []
      ∧ (l.peer .server).consumed
          ++ (l.peer .server).conn.inputBuffer.content ++ l.inFlight .server
          ++ (l.peer .client).conn.outputBuffer.content
        = (l.peer .client).sent := by
  obtain ⟨l, hl, hsent, hflight⟩ : Holds (run step pair shutdownPending)
      fun l => (l.peer .client).sent = [1, 2, 3] ∧ l.inFlight .server = [] := by
    decide +kernel
  exact ⟨l, hl, hsent, hflight, delivered_eq_sent shutdownPending hl .server⟩

/-- A side that has seen the end stays with what it has received. -/
theorem step_ended {a : Side × EventAct} (h : LinkInv l)
    (he : (l.peer s).ended = true) (hok : l.step a = .ok l') :
    (l'.peer s).ended = true ∧ (l'.peer s).received = (l.peer s).received := by
  obtain ⟨t, a⟩ := a
  obtain ⟨p, hp, heq⟩ := bind_ok_inv hok
  cases heq
  rcases eq_or_eq_other t s with rfl | rfl
  · have ht := Peer.step_turns hp
    rw [peer_setPeer]
    refine ⟨ht.stays he, ?_⟩
    obtain ⟨data, hdata, hreceived⟩ := ht.received
    have hflight := h.received_inFlight s
    rw [← (h.ended s he).2, List.append_right_eq_self] at hflight
    have hdata' : data <+: l.inFlight s := hdata
    rw [hflight, List.prefix_nil] at hdata'
    rw [hreceived, hdata', List.append_nil]
  · rw [peer_setPeer_other]
    exact ⟨he, rfl⟩

/-- The end of the stream comes after all of it: a side that has seen it
has received every byte that was taken from the peer, and every byte that
was sent unless the peer is down; nothing comes after it. -/
theorem ended_after_all (acts acts' : List (Side × EventAct)) {l l' : Link}
    (h : run step (create fd writeCompleteCb highWaterMarkCb) acts = .ok l)
    (s : Side) (he : (l.peer s).ended = true)
    (h' : run step l acts' = .ok l') :
    (l.peer s.other).shut = true ∧ l.inFlight s = []
      ∧ (Up (l.peer s.other).conn →
        (l.peer s).consumed ++ (l.peer s).conn.inputBuffer.content
          = (l.peer s.other).sent)
      ∧ (l'.peer s).consumed ++ (l'.peer s).conn.inputBuffer.content
        = (l.peer s).consumed ++ (l.peer s).conn.inputBuffer.content := by
  have hinv := run_linkInv h
  obtain ⟨hshut, hall⟩ := hinv.ended s he
  have hflight := hinv.received_inFlight s
  rw [← hall, List.append_right_eq_self] at hflight
  have hlater : LinkInv l' ∧ (l'.peer s).ended = true
      ∧ (l'.peer s).received = (l.peer s).received := by
    refine run_inv_all (I := fun m => LinkInv m ∧ (m.peer s).ended = true
      ∧ (m.peer s).received = (l.peer s).received)
      (fun m a m' hm hok => ?_) ⟨hinv, he, rfl⟩ h'
    obtain ⟨hm, hme, hsame⟩ := hm
    obtain ⟨hme', hsame'⟩ := step_ended hm hme hok
    exact ⟨step_inv hm hok, hme', hsame'.trans hsame⟩
  refine ⟨hshut, hflight, fun hup => ?_, ?_⟩
  · have hempty := ((hinv.kept s.other).up hup).2.2 hshut
    rw [(hinv.kept s).inp, hall, ← (hinv.kept s.other).out]
    unfold stream Peer.output
    rw [hempty, List.append_nil]
  · rw [(hlater.1.kept s).inp, hlater.2.2, (hinv.kept s).inp]

theorem ended_shutdownDone :
    ∃ l, run step pair (shutdownPending ++ shutdownDone) = .ok l
      ∧ (l.peer .client).conn.state = .kDisconnecting
      ∧ (l.peer .server).consumed = [1, 2]
      ∧ (l.peer .server).consumed
          ++ (l.peer .server).conn.inputBuffer.content
        = (l.peer .client).sent := by
  obtain ⟨l, hl, he, hstate, hused⟩ :
      Holds (run step pair (shutdownPending ++ shutdownDone)) fun l =>
        (l.peer .server).ended = true
        ∧ (l.peer .client).conn.state = .kDisconnecting
        ∧ (l.peer .server).consumed = [1, 2] := by
    decide +kernel
  have hend := ended_after_all (shutdownPending ++ shutdownDone) [] hl .server
    he rfl
  exact ⟨l, hl, hstate, hused, hend.2.2.1 (.inr hstate)⟩

end Link

end Cobra
