/-
What the output side of a connection does, and that it loses nothing:
the bytes the kernel has taken, followed by the content of the output
buffer, are the bytes that were sent.

# One account for each function

`Sent` and `Wrote` say what `sendInLoop` and `handleWrite` make of a
connection, for every answer of the kernel: what they log, what becomes
of the channel's interest, and what becomes of the stream. Both are
`Quiet`: they call no callback, do not close, and tell the poller of
every change of interest. The later modules read nothing else of them.

# The stream

A direct write is made only when nothing is buffered, so the bytes it
leaves behind go to the front of an empty buffer; a buffered write takes
from the front what the kernel took. Neither step needs to know how the
connection got where it is, which is why `stream_run` carries no
invariant besides the equation itself.
-/
import Cobra.Proofs.Buffer
import Cobra.TcpConnection

namespace Cobra

open Machine

-- ============================================================== the log

/-- What writing can log. -/
def ConnObs.isOutput : ConnObs → Bool
  | .accepted _ => true
  | .writeCompleteCb => true
  | .highWaterMarkCb _ => true
  | .updateChannel _ => true
  | _ => false

/-- What sends, writes and shutdowns can log. -/
def ConnObs.isQuiet (o : ConnObs) : Bool := o.isOutput || o == .shutdownWrite

/-- The interest the entry leaves the poller with. -/
def ConnObs.events (e : BitVec 32) : ConnObs → BitVec 32
  | .updateChannel e' => e'
  | _ => e

/-- The interest the poller has been told of last. -/
def lastEvents (e : BitVec 32) (obs : List ConnObs) : BitVec 32 :=
  obs.foldl ConnObs.events e

theorem accepted_append (l l' : List ConnObs) :
    accepted (l ++ l') = accepted l ++ accepted l' := List.flatMap_append ..

theorem lastEvents_append (e : BitVec 32) (l l' : List ConnObs) :
    lastEvents e (l ++ l') = lastEvents (lastEvents e l) l' :=
  List.foldl_append ..

theorem isQuiet_of_isOutput {o : ConnObs} (h : o.isOutput = true) :
    o.isQuiet = true := by
  unfold ConnObs.isQuiet
  rw [h, Bool.true_or]

/-- The answer is not one that makes `sendInLoop` give up the data. -/
def WriteResult.NoFault (w : WriteResult) : Prop :=
  w ≠ .failed .EPIPE ∧ w ≠ .failed .ECONNRESET

instance (w : WriteResult) : Decidable w.NoFault :=
  inferInstanceAs (Decidable (_ ∧ _))

-- ======================================================== read interest

/-- The channel asks for all of the read events. -/
def Channel.Reading (ch : Channel) : Prop :=
  ch.events &&& kReadEvent = kReadEvent

theorem Channel.Reading.not_none {ch : Channel} (h : ch.Reading) :
    ch.isNoneEvent = false := by
  unfold isNoneEvent
  rw [beq_eq_false_iff_ne]
  intro hnone
  unfold Reading at h
  rw [hnone] at h
  revert h
  decide

theorem Channel.reading_enableReading (ch : Channel) :
    ch.enableReading.Reading := by
  unfold Reading enableReading
  ext i hi
  simp only [BitVec.getElem_and, BitVec.getElem_or]
  cases kReadEvent[i] <;> simp

theorem Channel.reading_enableWriting {ch : Channel} (h : ch.Reading) :
    ch.enableWriting.Reading := by
  have hwrite : kWriteEvent &&& kReadEvent = 0#32 := by decide
  unfold Reading enableWriting
  rw [BitVec.and_or_distrib_right, hwrite, BitVec.or_zero]
  exact h

theorem Channel.reading_disableWriting {ch : Channel} (h : ch.Reading) :
    ch.disableWriting.Reading := by
  have hwrite : ~~~ kWriteEvent &&& kReadEvent = kReadEvent := by decide
  unfold Reading disableWriting
  rw [BitVec.and_assoc, hwrite]
  exact h

namespace TcpConnection

variable {c c' : TcpConnection}

/-- What was taken, and what is still to be written. -/
def stream (c : TcpConnection) : List UInt8 :=
  accepted c.obs ++ c.outputBuffer.content

/-- Write interest goes with pending output. -/
def Balanced (c : TcpConnection) : Prop :=
  c.channel.isWriting = true ↔ c.outputBuffer.content ≠ []

/-- `c'` is `c` after logging `new`, with the poller kept informed. -/
structure Logged (c : TcpConnection) (new : List ConnObs)
    (c' : TcpConnection) : Prop where
  obs : c'.obs = c.obs ++ new
  fd : c'.channel.fd = c.channel.fd
  revents : c'.channel.revents = c.channel.revents
  index : c'.channel.index = c.channel.index
  events : c'.channel.events = lastEvents c.channel.events new

theorem Logged.refl (c : TcpConnection) : Logged c [] c :=
  ⟨(List.append_nil _).symm, rfl, rfl, rfl, rfl⟩

theorem Logged.trans {new new' : List ConnObs} {c'' : TcpConnection}
    (h : Logged c new c') (h' : Logged c' new' c'') :
    Logged c (new ++ new') c'' where
  obs := by rw [h'.obs, h.obs, List.append_assoc]
  fd := h'.fd.trans h.fd
  revents := h'.revents.trans h.revents
  index := h'.index.trans h.index
  events := by rw [h'.events, h.events, lastEvents_append]

/-- An entry that is no update. -/
theorem logged_log (c : TcpConnection) {o : ConnObs}
    (ho : ∀ e, o ≠ .updateChannel e) : Logged c [o] (c.log o) where
  obs := rfl
  fd := rfl
  revents := rfl
  index := rfl
  events := by
    cases o with
    | updateChannel e => exact absurd rfl (ho e)
    | _ => rfl

/-- A change of interest. -/
theorem logged_setChannel (c : TcpConnection) {ch : Channel}
    (hfd : ch.fd = c.channel.fd) (hrev : ch.revents = c.channel.revents)
    (hidx : ch.index = c.channel.index) :
    Logged c [.updateChannel ch.events] (c.setChannel ch) :=
  ⟨rfl, hfd, hrev, hidx, rfl⟩

theorem Logged.accepted_obs {new : List ConnObs} (h : Logged c new c') :
    accepted c'.obs = accepted c.obs ++ accepted new := by
  rw [h.obs, accepted_append]

-- ============================================================== sending

/-- What `sendInLoop` makes of a connection. -/
structure Sent (c : TcpConnection) (data : List UInt8) (w : WriteResult)
    (c' : TcpConnection) : Prop where
  logged : ∃ new, Logged c new c' ∧ ∀ o ∈ new, o.isOutput = true
  state : c'.state = c.state
  inputBuffer : c'.inputBuffer = c.inputBuffer
  reading : c.channel.Reading → c'.channel.Reading
  balanced : Balanced c → Balanced c'
  stream : c.state ≠ .kDisconnected → w.NoFault ∨ data = [] →
    c'.stream = c.stream ++ data

/-- What the direct write makes of a connection. -/
structure Direct (c : TcpConnection) (data : List UInt8) (w : WriteResult)
    (r : TcpConnection × Nat × Nat × Bool) : Prop where
  logged : ∃ new, Logged c new r.1 ∧ ∀ o ∈ new, o.isOutput = true
  state : r.1.state = c.state
  channel : r.1.channel = c.channel
  inputBuffer : r.1.inputBuffer = c.inputBuffer
  outputBuffer : r.1.outputBuffer = c.outputBuffer
  remaining : r.2.2.1 = (data.drop r.2.1).length
  fault : r.2.2.2 = true → ¬ w.NoFault ∧ r.1 = c
  /-- the bytes taken come behind all others, since nothing is buffered -/
  stream : r.1.stream = c.stream ++ data.take r.2.1

theorem writeDirectly_direct (c : TcpConnection) (data : List UInt8)
    (w : WriteResult) : Direct c data w (c.writeDirectly data w) := by
  have hstay : ∀ fault : Bool, (fault = true → ¬ w.NoFault) →
      Direct c data w (c, 0, data.length, fault) := by
    intro fault hfault
    refine ⟨⟨[], .refl c, fun _ h => absurd h List.not_mem_nil⟩, rfl, rfl, rfl,
      rfl, rfl, fun h => ⟨hfault h, rfl⟩, ?_⟩
    rw [List.take_zero, List.append_nil]
  unfold writeDirectly
  split
  next hdirect =>
    cases w with
    | wrote n =>
        simp only [WriteResult.on]
        have hempty : c.outputBuffer.content = [] := by
          rw [Bool.and_eq_true, beq_iff_eq] at hdirect
          exact Buffer.content_eq_nil.2 hdirect.2
        have hstream : ∀ c' : TcpConnection, c'.outputBuffer = c.outputBuffer →
            accepted c'.obs
              = accepted c.obs ++ data.take (min n data.length) →
            c'.stream = c.stream ++ data.take (min n data.length) := by
          intro c' hout hacc
          unfold stream
          rw [hacc, hout, hempty, List.append_nil, List.append_nil]
        have hacc := logged_log c (o := .accepted
          (data.take (min n data.length))) nofun
        split
        · refine ⟨⟨_, hacc.trans (logged_log _ (o := .writeCompleteCb) nofun),
            ?_⟩, rfl, rfl, rfl, rfl, ?_, nofun, ?_⟩
          · intro o ho
            rcases List.mem_cons.1 ho with rfl | ho
            · rfl
            · rw [List.mem_singleton.1 ho]
              rfl
          · exact List.length_drop.symm
          · refine hstream _ rfl ?_
            show accepted ((c.obs ++ [_]) ++ [_]) = _
            rw [accepted_append, accepted_append]
            simp [accepted, ConnObs.bytes]
        · refine ⟨⟨_, hacc, ?_⟩, rfl, rfl, rfl, rfl, ?_, nofun, ?_⟩
          · intro o ho
            rw [List.mem_singleton.1 ho]
            rfl
          · exact List.length_drop.symm
          · refine hstream _ rfl ?_
            show accepted (c.obs ++ [_]) = _
            rw [accepted_append]
            simp [accepted, ConnObs.bytes]
    | failed e =>
        refine hstay _ fun hfault hw => ?_
        rw [Bool.or_eq_true, beq_iff_eq, beq_iff_eq] at hfault
        rcases hfault with rfl | rfl
        · exact hw.1 rfl
        · exact hw.2 rfl
  next => exact hstay false nofun

theorem checkHighWaterMark_logged (c : TcpConnection) (remaining : Nat) :
    ∃ new, Logged c new (c.checkHighWaterMark remaining)
      ∧ ∀ o ∈ new, o.isOutput = true := by
  unfold checkHighWaterMark
  simp only
  split
  · refine ⟨_, logged_log c nofun, fun o ho => ?_⟩
    rw [List.mem_singleton.1 ho]
    rfl
  · exact ⟨[], .refl c, fun _ h => absurd h List.not_mem_nil⟩

/-- The check for the mark changes nothing but the log. -/
theorem checkHighWaterMark_frame (c : TcpConnection) (remaining : Nat) :
    (c.checkHighWaterMark remaining).state = c.state
      ∧ (c.checkHighWaterMark remaining).channel = c.channel
      ∧ (c.checkHighWaterMark remaining).inputBuffer = c.inputBuffer
      ∧ (c.checkHighWaterMark remaining).outputBuffer = c.outputBuffer
      ∧ accepted (c.checkHighWaterMark remaining).obs = accepted c.obs := by
  unfold checkHighWaterMark
  simp only
  split
  · refine ⟨rfl, rfl, rfl, rfl, ?_⟩
    unfold log
    rw [accepted_append]
    exact List.append_nil _
  · exact ⟨rfl, rfl, rfl, rfl, rfl⟩

theorem ensureWriting_logged (c : TcpConnection) :
    ∃ new, Logged c new c.ensureWriting ∧ ∀ o ∈ new, o.isOutput = true := by
  unfold ensureWriting
  split
  · refine ⟨_, logged_setChannel c rfl rfl rfl, fun o ho => ?_⟩
    rw [List.mem_singleton.1 ho]
    rfl
  · exact ⟨[], .refl c, fun _ h => absurd h List.not_mem_nil⟩

theorem ensureWriting_reading (h : c.channel.Reading) :
    c.ensureWriting.channel.Reading := by
  unfold ensureWriting
  split
  · exact Channel.reading_enableWriting h
  · exact h

/-- Afterwards the channel writes; the buffers and the bytes taken are
the same. -/
theorem ensureWriting_frame (c : TcpConnection) :
    c.ensureWriting.channel.isWriting = true
      ∧ c.ensureWriting.state = c.state
      ∧ c.ensureWriting.inputBuffer = c.inputBuffer
      ∧ c.ensureWriting.outputBuffer = c.outputBuffer
      ∧ accepted c.ensureWriting.obs = accepted c.obs := by
  unfold ensureWriting
  split
  · refine ⟨Channel.isWriting_enableWriting _, rfl, rfl, rfl, ?_⟩
    unfold setChannel log
    rw [accepted_append]
    exact List.append_nil _
  next h =>
    rw [Bool.not_eq_true, Bool.not_eq_false'] at h
    exact ⟨h, rfl, rfl, rfl, rfl⟩

/-- Nothing is logged and the channel is left alone by a new buffer. -/
theorem logged_buffer {new : List ConnObs} (h : Logged c new c')
    (out : Buffer) : Logged c new { c' with outputBuffer := out } :=
  ⟨h.obs, h.fd, h.revents, h.index, h.events⟩

/-- Two steps that log output, one after the other. -/
theorem output_trans {c'' : TcpConnection}
    (h : ∃ new, Logged c new c' ∧ ∀ o ∈ new, o.isOutput = true)
    (h' : ∃ new, Logged c' new c'' ∧ ∀ o ∈ new, o.isOutput = true) :
    ∃ new, Logged c new c'' ∧ ∀ o ∈ new, o.isOutput = true := by
  obtain ⟨new, hlog, hout⟩ := h
  obtain ⟨new', hlog', hout'⟩ := h'
  refine ⟨new ++ new', hlog.trans hlog', fun o ho => ?_⟩
  rcases List.mem_append.1 ho with ho | ho
  · exact hout o ho
  · exact hout' o ho

/-- The bytes that are left go behind those that are buffered. -/
theorem bufferRest_ok (c : TcpConnection) {rest : List UInt8}
    (hrest : rest ≠ []) :
    Holds (c.bufferRest rest) fun c' =>
      (∃ new, Logged c new c' ∧ ∀ o ∈ new, o.isOutput = true)
        ∧ c'.state = c.state ∧ c'.inputBuffer = c.inputBuffer
        ∧ (c.channel.Reading → c'.channel.Reading)
        ∧ Balanced c' ∧ c'.stream = c.stream ++ rest := by
  obtain ⟨new, hlog, hnew⟩ := checkHighWaterMark_logged c rest.length
  obtain ⟨hstate, hchan, hin, hout, hacc⟩ :=
    checkHighWaterMark_frame c rest.length
  unfold bufferRest
  simp only
  refine holds_bind (holds_mapError (Buffer.append_ok ..)) fun out hcontent =>
    holds_ok ?_
  rw [hout] at hcontent
  obtain ⟨hwriting, hstate', hin', hout', hacc'⟩ := ensureWriting_frame
    { c.checkHighWaterMark rest.length with outputBuffer := out }
  refine ⟨output_trans ⟨new, logged_buffer hlog out, hnew⟩
    (ensureWriting_logged _), hstate'.trans hstate, hin'.trans hin, ?_, ?_, ?_⟩
  · intro hread
    apply ensureWriting_reading
    show (c.checkHighWaterMark rest.length).channel.Reading
    rw [hchan]
    exact hread
  · unfold Balanced
    rw [hout', hcontent]
    refine iff_of_true hwriting fun hnil => hrest ?_
    exact (List.append_eq_nil_iff.1 hnil).2
  · unfold stream
    rw [hacc', hout', hcontent, ← List.append_assoc]
    exact congrArg (· ++ _ ++ _) hacc

theorem sendInLoop_ok (c : TcpConnection) (data : List UInt8)
    (w : WriteResult) : Holds (c.sendInLoop data w) (Sent c data w) := by
  unfold sendInLoop
  split
  next hdown =>
    refine holds_ok ⟨⟨[], .refl c, fun _ h => absurd h List.not_mem_nil⟩, rfl,
      rfl, id, id, fun hup _ => ?_⟩
    exact absurd (beq_iff_eq.1 hdown) hup
  next =>
    have hd := writeDirectly_direct c data w
    generalize c.writeDirectly data w = r at hd ⊢
    obtain ⟨c₁, nwrote, remaining, fault⟩ := r
    have hrem : remaining = (data.drop nwrote).length := hd.remaining
    have hchan : c₁.channel = c.channel := hd.channel
    have hout : c₁.outputBuffer = c.outputBuffer := hd.outputBuffer
    have hdirect : c₁.stream = c.stream ++ data.take nwrote := hd.stream
    simp only
    split
    next hgo =>
      rw [Bool.and_eq_true, decide_eq_true_eq] at hgo
      have hrest : data.drop nwrote ≠ [] := by
        intro hnil
        rw [hnil] at hrem
        have hpos := hgo.2
        rw [hrem] at hpos
        exact Nat.lt_irrefl _ hpos
      refine holds_mono (bufferRest_ok c₁ hrest) fun c' h => ?_
      obtain ⟨hlog, hstate, hin, hread, hbal, hstream⟩ := h
      rw [hchan] at hread
      refine ⟨output_trans hd.logged hlog, hstate.trans hd.state,
        hin.trans hd.inputBuffer, hread, fun _ => hbal, fun _ _ => ?_⟩
      rw [hstream, hdirect, List.append_assoc, List.take_append_drop]
    next hstop =>
      refine holds_ok ⟨hd.logged, hd.state, hd.inputBuffer, ?_, fun hbal => ?_,
        fun _ hok => ?_⟩
      · rw [hchan]
        exact id
      · unfold Balanced
        rw [hchan, hout]
        exact hbal
      · -- nothing is left to write, or the data was given up
        rw [hdirect]
        congr 1
        apply List.take_of_length_le
        cases hfault : fault with
        | false =>
            rw [hfault] at hstop
            rw [List.length_drop] at hrem
            simp only [Bool.not_false, Bool.true_and, decide_eq_true_eq] at hstop
            omega
        | true =>
            rcases hok with hok | hok
            · exact absurd hok (hd.fault hfault).1
            · rw [hok]
              exact Nat.zero_le _

-- ============================================================== writing

/-- The kernel takes all of the output that is pending. -/
def Drains (c : TcpConnection) (w : WriteResult) : Prop :=
  c.channel.isWriting = true ∧ 0 < c.outputBuffer.readableBytes
    ∧ ∃ n, w = .wrote n ∧ c.outputBuffer.readableBytes ≤ n

/-- The half-close of a `handleWrite` that drains the output of a
connection that is being shut down. -/
def closing (s : StateE) : List ConnObs :=
  if s = .kDisconnecting then [.shutdownWrite] else []

/-- What `handleWrite` makes of a connection. -/
structure Wrote (c : TcpConnection) (w : WriteResult) (c' : TcpConnection) :
    Prop where
  logged : ∃ new, (∀ o ∈ new, o.isOutput = true)
    ∧ (Drains c w ∧ Logged c (new ++ closing c.state) c'
      ∨ ¬ Drains c w ∧ Logged c new c')
  drained : Drains c w → c'.outputBuffer.content = []
  state : c'.state = c.state
  inputBuffer : c'.inputBuffer = c.inputBuffer
  reading : c.channel.Reading → c'.channel.Reading
  balanced : Balanced c → Balanced c'
  stream : c'.stream = c.stream

theorem accepted_closing (s : StateE) : accepted (closing s) = [] := by
  unfold closing
  split <;> rfl

theorem shutdownInLoop_eq (h : c.channel.isWriting = false) :
    c.shutdownInLoop = c.log .shutdownWrite := by
  unfold shutdownInLoop
  rw [h]
  rfl

theorem shutdownInLoop_of_writing (h : c.channel.isWriting = true) :
    c.shutdownInLoop = c := by
  unfold shutdownInLoop
  rw [h]
  rfl

theorem finishWrite_logged (c : TcpConnection) :
    ∃ new, (∀ o ∈ new, o.isOutput = true) ∧ accepted new = []
      ∧ Logged c (new ++ closing c.state) c.finishWrite := by
  have hset : Logged c [.updateChannel c.channel.disableWriting.events]
      (c.setChannel c.channel.disableWriting) :=
    logged_setChannel c rfl rfl rfl
  -- the write complete callback is queued, or not
  obtain ⟨c₁, new, hc₁, hlog, hnew, hacc, hstate, hwriting⟩ : ∃ c₁ new,
      c₁ = (if c.writeCompleteCb then
        (c.setChannel c.channel.disableWriting).log .writeCompleteCb
        else c.setChannel c.channel.disableWriting)
      ∧ Logged c new c₁ ∧ (∀ o ∈ new, o.isOutput = true) ∧ accepted new = []
      ∧ c₁.state = c.state ∧ c₁.channel.isWriting = false := by
    split
    · refine ⟨_, _, rfl, hset.trans (logged_log _ nofun), fun o ho => ?_, rfl,
        rfl, Channel.isWriting_disableWriting _⟩
      rcases List.mem_cons.1 ho with rfl | ho
      · rfl
      · rw [List.mem_singleton.1 ho]
        rfl
    · refine ⟨_, _, rfl, hset, fun o ho => ?_, rfl, rfl,
        Channel.isWriting_disableWriting _⟩
      rw [List.mem_singleton.1 ho]
      rfl
  refine ⟨new, hnew, hacc, ?_⟩
  have heq : c.finishWrite
      = if c₁.state == .kDisconnecting then c₁.shutdownInLoop else c₁ := by
    rw [hc₁]
    rfl
  rw [heq, hstate]
  unfold closing
  by_cases hs : c.state = .kDisconnecting
  · rw [if_pos hs, if_pos (beq_iff_eq.2 hs), shutdownInLoop_eq hwriting]
    exact hlog.trans (logged_log c₁ nofun)
  · rw [if_neg hs, if_neg (fun h => hs (beq_iff_eq.1 h)), List.append_nil]
    exact hlog

/-- Afterwards the channel does not write; the state and the buffers are
the same. -/
theorem finishWrite_frame (c : TcpConnection) :
    c.finishWrite.channel.isWriting = false
      ∧ c.finishWrite.state = c.state
      ∧ c.finishWrite.inputBuffer = c.inputBuffer
      ∧ c.finishWrite.outputBuffer = c.outputBuffer := by
  have hwriting : c.channel.disableWriting.isWriting = false :=
    Channel.isWriting_disableWriting _
  unfold finishWrite shutdownInLoop
  simp only
  split <;> split <;> try split
  all_goals exact ⟨hwriting, rfl, rfl, rfl⟩

theorem finishWrite_reading (h : c.channel.Reading) :
    c.finishWrite.channel.Reading := by
  have hread := Channel.reading_disableWriting h
  unfold finishWrite shutdownInLoop
  simp only
  split <;> split <;> try split
  all_goals exact hread

/-- What `takeOutput` makes of a connection. -/
structure Took (c : TcpConnection) (n : Nat) (c' : TcpConnection) : Prop where
  logged : Logged c [.accepted (c.outputBuffer.content.take n)] c'
  state : c'.state = c.state
  channel : c'.channel = c.channel
  inputBuffer : c'.inputBuffer = c.inputBuffer
  content : c'.outputBuffer.content = c.outputBuffer.content.drop n

theorem takeOutput_ok {n : Nat} (hn : n ≤ c.outputBuffer.readableBytes) :
    Holds (c.takeOutput n) (Took c n) := by
  unfold takeOutput
  have hlog := logged_log c
    (o := .accepted (c.outputBuffer.content.take n)) nofun
  refine holds_bind (holds_mapError (Buffer.retrieve_ok hn)) fun out hout => ?_
  exact holds_ok ⟨logged_buffer hlog out, rfl, rfl, rfl, hout⟩

theorem Took.readableBytes {n : Nat} (h : Took c n c') :
    c'.outputBuffer.readableBytes = c.outputBuffer.readableBytes - n := by
  rw [← Buffer.length_content, h.content, List.length_drop,
    Buffer.length_content]

theorem Took.stream {n : Nat} (h : Took c n c') : c'.stream = c.stream := by
  unfold TcpConnection.stream
  rw [h.logged.accepted_obs, h.content, List.append_assoc]
  congr 1
  simp only [accepted, ConnObs.bytes, List.flatMap_cons, List.flatMap_nil,
    List.append_nil, List.take_append_drop]

/-- The kernel took all there was. -/
theorem Took.finish {n m : Nat} (h : Took c n c') (hd : Drains c (.wrote m))
    (hempty : c'.outputBuffer.readableBytes = 0) :
    Wrote c (.wrote m) c'.finishWrite := by
  have hnil : c'.outputBuffer.content = [] := Buffer.content_eq_nil.2 hempty
  obtain ⟨new, hnew, hacc, hlog⟩ := finishWrite_logged c'
  obtain ⟨hidle, hstate, hin, hout⟩ := finishWrite_frame c'
  refine ⟨⟨.accepted (c.outputBuffer.content.take n) :: new, ?_,
    .inl ⟨hd, ?_⟩⟩, fun _ => ?_, hstate.trans h.state,
    hin.trans h.inputBuffer, fun hread => ?_, fun _ => ?_, ?_⟩
  · intro o ho
    rcases List.mem_cons.1 ho with rfl | ho
    · rfl
    · exact hnew o ho
  · rw [← h.state]
    exact h.logged.trans hlog
  · rw [hout, hnil]
  · rw [← h.channel] at hread
    exact finishWrite_reading hread
  · unfold Balanced
    rw [hidle, hout, hnil]
    simp
  · rw [← h.stream]
    unfold TcpConnection.stream
    rw [hlog.accepted_obs, accepted_append, hacc, accepted_closing, hout,
      List.append_nil, List.append_nil]

/-- The kernel left some of it. -/
theorem Took.wrote {n m : Nat} (h : Took c n c') (hd : ¬ Drains c (.wrote m))
    (hwriting : c.channel.isWriting = true)
    (hmore : c'.outputBuffer.readableBytes ≠ 0) : Wrote c (.wrote m) c' := by
  refine ⟨⟨_, ?_, .inr ⟨hd, h.logged⟩⟩, fun hd' => absurd hd' hd, h.state,
    h.inputBuffer, ?_, fun _ => ?_, h.stream⟩
  · intro o ho
    rw [List.mem_singleton.1 ho]
    rfl
  · rw [h.channel]
    exact id
  · unfold Balanced
    rw [h.channel]
    exact iff_of_true hwriting fun hnil =>
      hmore (Buffer.content_eq_nil.1 hnil)

theorem handleWrite_ok (c : TcpConnection) (w : WriteResult) :
    Holds (c.handleWrite w) (Wrote c w) := by
  have hstay : ¬ Drains c w → Wrote c w c := fun h =>
    ⟨⟨[], fun _ ho => absurd ho List.not_mem_nil, .inr ⟨h, .refl c⟩⟩,
      fun hd => absurd hd h, rfl, rfl, id, id, rfl⟩
  unfold handleWrite
  split
  next hwriting =>
    cases w with
    | failed e =>
        refine holds_ok (hstay fun h => ?_)
        obtain ⟨-, -, n, hn, -⟩ := h
        cases hn
    | wrote n =>
        have hdrains : Drains c (.wrote n)
            ↔ 0 < c.outputBuffer.readableBytes
              ∧ c.outputBuffer.readableBytes ≤ n := by
          constructor
          · intro h
            obtain ⟨-, hpos, m, hm, hle⟩ := h
            cases hm
            exact ⟨hpos, hle⟩
          · intro h
            exact ⟨hwriting, h.1, n, rfl, h.2⟩
        simp only [WriteResult.on]
        split
        next hpos =>
          refine holds_bind (takeOutput_ok (Nat.min_le_right ..))
            fun c' htook => ?_
          have hlen := htook.readableBytes
          split
          next hempty =>
            rw [beq_iff_eq] at hempty
            exact holds_ok (htook.finish (hdrains.2 (by omega)) hempty)
          next hmore =>
            rw [beq_iff_eq] at hmore
            refine holds_ok (htook.wrote (fun h => ?_) hwriting hmore)
            obtain ⟨-, hle⟩ := hdrains.1 h
            omega
        next hzero =>
          refine holds_ok (hstay fun h => ?_)
          obtain ⟨hpos, hle⟩ := hdrains.1 h
          omega
  next hidle =>
    exact holds_ok (hstay fun h => hidle h.1)

-- ============================================================== reading

/-- The three outcomes of a read: a message, the end of the stream, an
error. -/
theorem handleRead_read (c : TcpConnection) {i : EventInput}
    {stream : List UInt8} (h : i.read = .read stream) :
    ∃ buf, c.handleRead i
      = if stream ≠ [] then
          { c with inputBuffer := buf }.callMessageCb i.onMessage
        else { c with inputBuffer := buf }.handleClose i.onConnection := by
  have hfit : (stream.take c.inputBuffer.readvSize).length
      ≤ c.inputBuffer.readvSize := List.length_take_le ..
  have hpos : 0 < c.inputBuffer.readvSize := by
    unfold Buffer.readvSize Buffer.kExtraSize
    split <;> omega
  have hiff : (stream.take c.inputBuffer.readvSize).length > 0
      ↔ stream ≠ [] := by
    rw [List.length_take, gt_iff_lt, Nat.lt_min, ← List.length_pos_iff]
    exact and_iff_right hpos
  obtain ⟨buf, hbuf, -⟩ := Buffer.readFd_ok hfit
  refine ⟨buf, ?_⟩
  unfold handleRead
  simp only [h, hbuf, hiff]
  rfl

theorem handleRead_failed (c : TcpConnection) {i : EventInput} {e : Errno}
    (h : i.read = .failed e) : c.handleRead i = .ok c := by
  unfold handleRead
  rw [h]
  rfl

-- ============================================================ every run

/-- The connection is up, or half closed. -/
def Up (c : TcpConnection) : Prop :=
  c.state = .kConnected ∨ c.state = .kDisconnecting

theorem Up.ne_disconnected (h : Up c) : c.state ≠ .kDisconnected := by
  intro hs
  rcases h with h | h
  · rw [hs] at h
    cases h
  · rw [hs] at h
    cases h

theorem Up.congr (h : Up c) (hs : c'.state = c.state) : Up c' := by
  unfold Up
  rw [hs]
  exact h

/-- The half-close takes no bytes. -/
theorem stream_shutdownInLoop (c : TcpConnection) :
    c.shutdownInLoop.stream = c.stream := by
  unfold shutdownInLoop
  split
  · unfold stream log
    simp only
    rw [accepted_append]
    exact congrArg (· ++ _) (List.append_nil _)
  · rfl

theorem state_shutdownInLoop (c : TcpConnection) :
    c.shutdownInLoop.state = c.state := by
  unfold shutdownInLoop
  split <;> rfl

theorem balanced_shutdownInLoop (h : Balanced c) :
    Balanced c.shutdownInLoop := by
  unfold shutdownInLoop
  split
  · exact h
  · exact h

/-- The data that the action sends. -/
def OutputAct.data : OutputAct → List UInt8
  | .sendInLoop data _ => data
  | _ => []

/-- No send of the action gives up its data. -/
def OutputAct.NoFault : OutputAct → Prop
  | .sendInLoop _ w => w.NoFault
  | _ => True

instance : (a : OutputAct) → Decidable a.NoFault
  | .sendInLoop _ w => inferInstanceAs (Decidable w.NoFault)
  | .handleWrite _ => .isTrue trivial
  | .shutdown => .isTrue trivial
  | .shutdownInLoop => .isTrue trivial

/-- One action, on the stream. -/
theorem outputStep_stream (h : Up c) {a : OutputAct} (ha : a.NoFault) :
    Holds (c.outputStep a) fun c' =>
      Up c' ∧ c'.stream = c.stream ++ a.data := by
  cases a with
  | sendInLoop data w =>
      refine holds_mono (sendInLoop_ok c data w) fun c' hc => ?_
      exact ⟨h.congr hc.state, hc.stream h.ne_disconnected (.inl ha)⟩
  | handleWrite w =>
      refine holds_mono (handleWrite_ok c w) fun c' hc => ?_
      refine ⟨h.congr hc.state, ?_⟩
      rw [hc.stream]
      exact (List.append_nil _).symm
  | shutdown =>
      simp only [outputStep]
      split
      · exact holds_ok ⟨.inr rfl, (List.append_nil _).symm⟩
      · exact holds_ok ⟨h, (List.append_nil _).symm⟩
  | shutdownInLoop =>
      refine holds_ok ⟨h.congr (state_shutdownInLoop c), ?_⟩
      rw [stream_shutdownInLoop]
      exact (List.append_nil _).symm

theorem stream_run : ∀ (acts : List OutputAct) {c : TcpConnection}, Up c →
    (∀ a ∈ acts, a.NoFault) →
    ∃ c', run outputStep c acts = .ok c'
      ∧ c'.stream = c.stream ++ acts.flatMap OutputAct.data := by
  intro acts
  induction acts with
  | nil =>
      intro c _ _
      exact ⟨c, rfl, (List.append_nil _).symm⟩
  | cons a acts ih =>
      intro c hup hacts
      obtain ⟨c₁, hok, hup₁, hstream⟩ :=
        outputStep_stream hup (hacts a (List.mem_cons_self ..))
      obtain ⟨c', hrun, hstream'⟩ := ih hup₁
        fun a' ha' => hacts a' (List.mem_cons_of_mem _ ha')
      refine ⟨c', by rw [run_cons_ok acts hok]; exact hrun, ?_⟩
      rw [hstream', hstream, List.flatMap_cons, List.append_assoc]

/-- Whatever the kernel answers, short of an error that makes the code
give the data up, no byte is lost, duplicated or reordered: those the
kernel has taken, followed by those in the output buffer, are those that
were sent. -/
theorem accepted_content_eq_sent (c : TcpConnection) (hup : Up c)
    (hnew : accepted c.obs = [] ∧ c.outputBuffer.content = [])
    (acts : List OutputAct) (hacts : ∀ a ∈ acts, a.NoFault) :
    ∃ c', run outputStep c acts = .ok c'
      ∧ accepted c'.obs ++ c'.outputBuffer.content
        = acts.flatMap OutputAct.data := by
  obtain ⟨c', hrun, hstream⟩ := stream_run acts hup hacts
  refine ⟨c', hrun, hstream.trans ?_⟩
  unfold stream
  rw [hnew.1, hnew.2]
  rfl

/-- A partial direct write, a send behind it, and two write events. -/
def partialWrites : List OutputAct :=
  [.sendInLoop [1, 2, 3] (.wrote 1), .sendInLoop [4] (.wrote 1),
    .handleWrite (.failed .EWOULDBLOCK), .handleWrite (.wrote 2)]

theorem accepted_content_partialWrites :
    Up (established 9 true true)
      ∧ (∀ a ∈ partialWrites, a.NoFault)
      ∧ ∃ c', run outputStep (established 9 true true) partialWrites = .ok c'
        ∧ accepted c'.obs ++ c'.outputBuffer.content = [1, 2, 3, 4] := by
  have hup : Up (established 9 true true) := .inl rfl
  have hacts : ∀ a ∈ partialWrites, a.NoFault := by decide
  exact ⟨hup, hacts, accepted_content_eq_sent (established 9 true true) hup
    ⟨rfl, Buffer.content_empty⟩ partialWrites hacts⟩

-- ======================================================= quiet functions

/-- `c'` is `c` after sends, writes and shutdowns: no callback has been
called, and a connection is where it was on the way down. -/
structure Quiet (c c' : TcpConnection) : Prop where
  logged : ∃ new, Logged c new c' ∧ ∀ o ∈ new, o.isQuiet = true
  up : Up c → Up c'
  reading : c.channel.Reading → c'.channel.Reading
  down : c.state = .kDisconnected ∧ c.channel.isNoneEvent = true →
    c'.state = .kDisconnected ∧ c'.channel.isNoneEvent = true

theorem Quiet.refl (c : TcpConnection) : Quiet c c :=
  ⟨⟨[], .refl c, fun _ h => absurd h List.not_mem_nil⟩, id, id, id⟩

theorem Quiet.trans {c'' : TcpConnection} (h : Quiet c c')
    (h' : Quiet c' c'') : Quiet c c'' := by
  obtain ⟨new, hlog, hquiet⟩ := h.logged
  obtain ⟨new', hlog', hquiet'⟩ := h'.logged
  refine ⟨⟨new ++ new', hlog.trans hlog', fun o ho => ?_⟩,
    fun hu => h'.up (h.up hu), fun hr => h'.reading (h.reading hr),
    fun hd => h'.down (h.down hd)⟩
  rcases List.mem_append.1 ho with ho | ho
  · exact hquiet o ho
  · exact hquiet' o ho

theorem isWriting_of_isNoneEvent {ch : Channel} (h : ch.isNoneEvent = true) :
    ch.isWriting = false := by
  unfold Channel.isNoneEvent at h
  rw [beq_iff_eq] at h
  unfold Channel.isWriting
  rw [h]
  decide

/-- A disconnected connection gives up what it is to send. -/
theorem sendInLoop_down (h : c.state = .kDisconnected) (data : List UInt8)
    (w : WriteResult) : c.sendInLoop data w = .ok c := by
  unfold sendInLoop
  rw [h]
  rfl

theorem handleWrite_idle (h : c.channel.isWriting = false) (w : WriteResult) :
    c.handleWrite w = .ok c := by
  unfold handleWrite
  rw [h]
  rfl

theorem sendInLoop_quiet (c : TcpConnection) (data : List UInt8)
    (w : WriteResult) : Holds (c.sendInLoop data w) (Quiet c) := by
  obtain ⟨c', hok, hc⟩ := sendInLoop_ok c data w
  obtain ⟨new, hlog, hout⟩ := hc.logged
  refine ⟨c', hok, ⟨new, hlog, fun o ho => isQuiet_of_isOutput (hout o ho)⟩,
    fun h => h.congr hc.state, hc.reading, fun h => ?_⟩
  rw [sendInLoop_down h.1] at hok
  cases hok
  exact h

theorem handleWrite_quiet (c : TcpConnection) (w : WriteResult) :
    Holds (c.handleWrite w) (Quiet c) := by
  obtain ⟨c', hok, hc⟩ := handleWrite_ok c w
  obtain ⟨new, hout, hlog⟩ := hc.logged
  have hquiet : ∀ o ∈ new ++ closing c.state, o.isQuiet = true := by
    intro o ho
    rcases List.mem_append.1 ho with ho | ho
    · exact isQuiet_of_isOutput (hout o ho)
    · unfold closing at ho
      split at ho
      · rw [List.mem_singleton.1 ho]
        rfl
      · cases ho
  refine ⟨c', hok, ?_, fun h => h.congr hc.state, hc.reading, fun h => ?_⟩
  · rcases hlog with ⟨-, hlog⟩ | ⟨-, hlog⟩
    · exact ⟨_, hlog, hquiet⟩
    · exact ⟨new, hlog, fun o ho => hquiet o (List.mem_append_left _ ho)⟩
  · rw [handleWrite_idle (isWriting_of_isNoneEvent h.2)] at hok
    cases hok
    exact h

theorem shutdownInLoop_quiet (c : TcpConnection) :
    Quiet c c.shutdownInLoop := by
  unfold shutdownInLoop
  split
  · refine ⟨⟨_, logged_log c nofun, fun o ho => ?_⟩, id, id, id⟩
    rw [List.mem_singleton.1 ho]
    rfl
  · exact .refl c

/-- The half of `shutdown` that sets the state. -/
theorem setState_quiet (h : c.state = .kConnected) :
    Quiet c (c.setState .kDisconnecting) := by
  refine ⟨⟨[], ⟨(List.append_nil _).symm, rfl, rfl, rfl, rfl⟩,
    fun _ h => absurd h List.not_mem_nil⟩, fun _ => .inr rfl, id, fun hd => ?_⟩
  rw [h] at hd
  cases hd.1

theorem inputBuffer_quiet (c : TcpConnection) (buf : Buffer) :
    Quiet c { c with inputBuffer := buf } :=
  ⟨⟨[], ⟨(List.append_nil _).symm, rfl, rfl, rfl, rfl⟩,
    fun _ h => absurd h List.not_mem_nil⟩, id, id, id⟩

theorem userOp_quiet (c : TcpConnection) (op : UserOp) :
    Holds (c.userOp op) (Quiet c) := by
  cases op with
  | send data w =>
      simp only [userOp, send]
      split
      · exact sendInLoop_quiet c data w
      · exact holds_ok (.refl c)
  | shutdown =>
      apply holds_ok
      unfold shutdown
      split
      next h =>
        exact (setState_quiet (beq_iff_eq.1 h)).trans (shutdownInLoop_quiet _)
      next => exact .refl c
  | retrieve len =>
      simp only [userOp]
      refine holds_bind (holds_mapError (Buffer.retrieve_ok
        (Nat.min_le_right ..))) fun buf _ => ?_
      exact holds_ok (inputBuffer_quiet c buf)

/-- User code is quiet, whatever it does. -/
theorem userOps_quiet : ∀ (ops : List UserOp) (c : TcpConnection),
    Holds (run userOp c ops) (Quiet c) := by
  intro ops
  induction ops with
  | nil =>
      intro c
      exact holds_ok (.refl c)
  | cons op ops ih =>
      intro c
      obtain ⟨c₁, hok, hq⟩ := userOp_quiet c op
      obtain ⟨c', hrun, hq'⟩ := ih c₁
      exact ⟨c', by rw [run_cons_ok ops hok]; exact hrun, hq.trans hq'⟩

theorem outputStep_quiet (c : TcpConnection) (a : OutputAct) :
    Holds (c.outputStep a) (Quiet c) := by
  cases a with
  | sendInLoop data w => exact sendInLoop_quiet c data w
  | handleWrite w => exact handleWrite_quiet c w
  | shutdown =>
      simp only [outputStep]
      split
      next h => exact holds_ok (setState_quiet (beq_iff_eq.1 h))
      next => exact holds_ok (.refl c)
  | shutdownInLoop => exact holds_ok (shutdownInLoop_quiet c)

-- ======================================================== all functions

/-- `c'` is `c` after any of its functions but the last: the log has only
grown, the poller knows the interest, and the channel is not removed. -/
def Evolves (c c' : TcpConnection) : Prop :=
  ∃ new, Logged c new c' ∧ .removeChannel ∉ new

theorem Evolves.refl (c : TcpConnection) : Evolves c c :=
  ⟨[], .refl c, List.not_mem_nil⟩

theorem Evolves.trans {c'' : TcpConnection} (h : Evolves c c')
    (h' : Evolves c' c'') : Evolves c c'' := by
  obtain ⟨new, hlog, hnot⟩ := h
  obtain ⟨new', hlog', hnot'⟩ := h'
  refine ⟨new ++ new', hlog.trans hlog', fun hm => ?_⟩
  rcases List.mem_append.1 hm with hm | hm
  · exact hnot hm
  · exact hnot' hm

theorem Quiet.evolves (h : Quiet c c') : Evolves c c' := by
  obtain ⟨new, hlog, hquiet⟩ := h.logged
  refine ⟨new, hlog, fun hm => ?_⟩
  have hq := hquiet _ hm
  revert hq
  decide

theorem evolves_log (c : TcpConnection) {o : ConnObs}
    (hupdate : ∀ e, o ≠ .updateChannel e) (hremove : o ≠ .removeChannel) :
    Evolves c (c.log o) :=
  ⟨[o], logged_log c hupdate,
    fun hm => hremove (List.mem_singleton.1 hm).symm⟩

theorem evolves_setChannel (c : TcpConnection) {ch : Channel}
    (hfd : ch.fd = c.channel.fd) (hrev : ch.revents = c.channel.revents)
    (hidx : ch.index = c.channel.index) : Evolves c (c.setChannel ch) :=
  ⟨_, logged_setChannel c hfd hrev hidx, by simp⟩

theorem evolves_setState (c : TcpConnection) (s : StateE) :
    Evolves c (c.setState s) :=
  ⟨[], ⟨(List.append_nil _).symm, rfl, rfl, rfl, rfl⟩, List.not_mem_nil⟩

theorem evolves_disconnect (c : TcpConnection) : Evolves c c.disconnect :=
  (evolves_setState c _).trans (evolves_setChannel _ rfl rfl rfl)

theorem callConnectionCb_evolves (c : TcpConnection) (ops : List UserOp) :
    Holds (c.callConnectionCb ops) (Evolves c) := by
  have hlog : Evolves c (c.log (.connectionCb c.connected)) :=
    evolves_log c nofun nofun
  unfold callConnectionCb
  exact holds_mono (userOps_quiet ops _) fun c' hq => hlog.trans hq.evolves

theorem callMessageCb_evolves (c : TcpConnection) (ops : List UserOp) :
    Holds (c.callMessageCb ops) (Evolves c) := by
  have hlog : Evolves c (c.log .messageCb) := evolves_log c nofun nofun
  unfold callMessageCb
  exact holds_mono (userOps_quiet ops _) fun c' hq => hlog.trans hq.evolves

theorem handleClose_evolves {ops : List UserOp}
    (h : c.handleClose ops = .ok c') : Evolves c c' := by
  unfold handleClose at h
  obtain ⟨-, -, h⟩ := bind_ok_inv h
  obtain ⟨c₁, hcall, h⟩ := bind_ok_inv h
  cases h
  have hlog : Evolves c (c.log .handleClose) := evolves_log c nofun nofun
  exact ((hlog.trans (evolves_disconnect _)).trans
    ((callConnectionCb_evolves _ ops).of_ok hcall)).trans
    (evolves_log c₁ nofun nofun)

theorem handleRead_evolves {i : EventInput} (h : c.handleRead i = .ok c') :
    Evolves c c' := by
  cases hr : i.read with
  | failed e =>
      rw [handleRead_failed c hr] at h
      cases h
      exact .refl c
  | read stream =>
      obtain ⟨buf, heq⟩ := handleRead_read c hr
      have hbuf := (inputBuffer_quiet c buf).evolves
      rw [heq] at h
      split at h
      · exact hbuf.trans ((callMessageCb_evolves _ _).of_ok h)
      · exact hbuf.trans (handleClose_evolves h)

theorem guarded_handleError (b : Bool) (c : TcpConnection) :
    guarded b (fun c => (.ok c.handleError : Except ConnAssert _)) c
      = .ok c := by
  cases b <;> rfl

/-- An event, but for the error it may report. -/
theorem handleEventWithGuard_eq (c : TcpConnection) (i : EventInput) :
    c.handleEventWithGuard i
      = (guarded (hasAny c.channel.revents POLLHUP
          && !hasAny c.channel.revents POLLIN)
          (fun c => c.handleClose i.onConnection) c >>= fun c₁ =>
        guarded (hasAny c.channel.revents (POLLIN ||| POLLPRI ||| POLLRDHUP))
          (fun c => c.handleRead i) c₁ >>= fun c₂ =>
        guarded (hasAny c.channel.revents POLLOUT)
          (fun c => c.handleWrite i.write) c₂) := by
  unfold handleEventWithGuard
  simp only [guarded_handleError, ok_bind]

theorem handleEventWithGuard_evolves {i : EventInput}
    (h : c.handleEventWithGuard i = .ok c') : Evolves c c' := by
  rw [handleEventWithGuard_eq] at h
  obtain ⟨c₁, hclose, h⟩ := bind_ok_inv h
  obtain ⟨c₂, hread, h⟩ := bind_ok_inv h
  have h₁ : Evolves c c₁ := guarded_inv (.refl c) handleClose_evolves hclose
  have h₂ : Evolves c₁ c₂ := guarded_inv (.refl c₁) handleRead_evolves hread
  have h₃ : Evolves c₂ c' := guarded_inv (.refl c₂)
    (fun h => ((handleWrite_quiet c₂ i.write).of_ok h).evolves) h
  exact (h₁.trans h₂).trans h₃

end TcpConnection

end Cobra
