/-
When a graceful shutdown loses nothing: at a `ShutdownWrite`, the kernel
has taken every message whose `send` found the connection up, exactly if
no write event drains the output while the connection is being shut down
and messages still wait in the loop's queue.

# The race

`shutdown` sets `state_` at once and queues the rest, behind the messages
that wait for the loop. In between, a write event that empties the output
buffer finds `kDisconnecting` and half-closes the connection, on the
ground that everything has been written; the messages in the queue then
meet `EPIPE` (`shutdown_overtakes_send`).

# The invariant

What was sent is what was taken, what is buffered and what is queued, in
this order (`stream`). The queue holds the shutdown behind all messages
(`order`), so a `shutdownInLoop` called from it finds no message left;
and a channel that does not write has nothing buffered (`balanced`).
-/
import Cobra.ConnThreads
import Cobra.Proofs.TcpConnection

namespace Cobra

open Machine

/-- The bytes a functor is to send. -/
def ConnFunctor.data : ConnFunctor → List UInt8
  | .sendInLoop data => data
  | .shutdownInLoop => []

namespace ConnThreads

variable {s s' : ConnThreads}

/-- The bytes that wait in the loop's queue. -/
def queuedBytes (s : ConnThreads) : List UInt8 :=
  s.queue.waiting.flatMap ConnFunctor.data

/-- At every half-close, the kernel has taken all that was sent. -/
def NoLoss (s : ConnThreads) : Prop :=
  AtEach (fun pre o _ => o = .shutdownWrite → accepted pre = s.sent.flatten)
    s.conn.obs

-- =========================================================== invariants

/-- What holds in every run. -/
structure Orderly (s : ConnThreads) : Prop where
  up : s.conn.Up
  /-- the shutdown is queued behind all messages -/
  order : ∀ pre post, s.queue.waiting = pre ++ .shutdownInLoop :: post →
    post = [] ∧ s.conn.state = .kDisconnecting
  /-- only a connection being shut down is half-closed -/
  half : .shutdownWrite ∈ s.conn.obs → s.conn.state = .kDisconnecting

/-- What holds as long as nothing is lost. -/
structure Delivers (s : ConnThreads) : Prop where
  orderly : Orderly s
  balanced : s.conn.Balanced
  stream : s.conn.stream ++ s.queuedBytes = s.sent.flatten
  noLoss : NoLoss s

/-- Once half-closed, everything has been taken. -/
theorem Delivers.drained (h : Delivers s) (hm : .shutdownWrite ∈ s.conn.obs) :
    s.queuedBytes = [] := by
  obtain ⟨pre, post, hobs⟩ := List.append_of_mem hm
  have hpre := h.noLoss pre _ post hobs rfl
  have hstream := congrArg List.length h.stream
  unfold TcpConnection.stream at hstream
  rw [hobs, accepted_append, ← hpre] at hstream
  simp only [List.length_append] at hstream
  apply List.eq_nil_of_length_eq_zero
  omega

theorem delivers_create (fd : Nat) (writeCompleteCb highWaterMarkCb : Bool) :
    Delivers (create fd writeCompleteCb highWaterMarkCb) where
  orderly :=
    { up := .inl rfl
      order := by
        intro pre post h
        exact absurd h (by simp [create])
      half := by
        intro h
        simp [create, TcpConnection.established, TcpConnection.setChannel,
          TcpConnection.log, TcpConnection.setState,
          TcpConnection.create] at h }
  balanced := by
    refine iff_of_false ?_ ?_
    · show ¬ (Channel.create fd).enableReading.isWriting = true
      rw [Channel.isWriting_enableReading, Channel.isWriting_create]
      exact Bool.false_ne_true
    · intro h
      exact h Buffer.content_empty
  stream := by
    show accepted _ ++ Buffer.empty.content ++ _ = _
    rw [Buffer.content_empty]
    rfl
  noLoss := by
    intro pre o post hobs ho
    have hmem : o ∈ (create fd writeCompleteCb highWaterMarkCb).conn.obs := by
      rw [hobs]
      simp
    subst ho
    simp [create, TcpConnection.established, TcpConnection.setChannel,
      TcpConnection.log, TcpConnection.setState,
      TcpConnection.create] at hmem

-- ============================================================== the steps

/-- What the action `a` can make of `s`. -/
inductive Moves (s : ConnThreads) : ConnAct → ConnThreads → Prop
  | stay (a : ConnAct)
      (ha : ∀ w, a = .handleWrite w → s.queue.functors ≠ []) : Moves s a s
  | send (data : List UInt8) (h : s.conn.state = .kConnected) :
      Moves s (.send data)
        { s with
          queue := s.queue.push (.sendInLoop data)
          sent := s.sent ++ [data] }
  | shutdown (h : s.conn.state = .kConnected) :
      Moves s .shutdown
        { s with
          conn := s.conn.setState .kDisconnecting
          queue := s.queue.push .shutdownInLoop }
  | swap (hq : s.queue.functors = []) :
      Moves s .swap { s with queue := s.queue.swap }
  | callSend (w : WriteResult) (data : List UInt8) (rest : List ConnFunctor)
      (hq : s.queue.functors = .sendInLoop data :: rest) (c : TcpConnection)
      (hc : s.conn.Sent data (answer s.conn w) c) :
      Moves s (.call w)
        { s with conn := c, queue := { s.queue with functors := rest } }
  | callShutdown (w : WriteResult) (rest : List ConnFunctor)
      (hq : s.queue.functors = .shutdownInLoop :: rest) :
      Moves s (.call w)
        { s with
          conn := s.conn.shutdownInLoop
          queue := { s.queue with functors := rest } }
  | write (w : WriteResult) (hq : s.queue.functors = []) (c : TcpConnection)
      (hc : s.conn.Wrote (answer s.conn w) c) :
      Moves s (.handleWrite w) { s with conn := c }
  | read (r : ReadResult) (buf : Buffer) :
      Moves s (.handleRead r)
        { s with conn := { s.conn with inputBuffer := buf }.log .messageCb }

/-- No step fails an assertion. -/
theorem step_moves (s : ConnThreads) (a : ConnAct) :
    ∃ s', s.step a = .ok s' ∧ Moves s a s' := by
  cases a with
  | send data =>
      simp only [step]
      split
      next h => exact ⟨_, rfl, .send data (beq_iff_eq.1 h)⟩
      next => exact ⟨s, rfl, .stay _ nofun⟩
  | shutdown =>
      simp only [step]
      split
      next h => exact ⟨_, rfl, .shutdown (beq_iff_eq.1 h)⟩
      next => exact ⟨s, rfl, .stay _ nofun⟩
  | swap =>
      simp only [step]
      split
      next h => exact ⟨_, rfl, .swap (List.isEmpty_iff.1 h)⟩
      next => exact ⟨s, rfl, .stay _ nofun⟩
  | call w =>
      simp only [step]
      split
      next f rest hq =>
        cases f with
        | sendInLoop data =>
            obtain ⟨c, hok, hc⟩ :=
              TcpConnection.sendInLoop_ok s.conn data (answer s.conn w)
            refine ⟨_, ?_, .callSend w data rest hq c hc⟩
            simp only [inLoop, invoke, hok, ok_bind]
        | shutdownInLoop => exact ⟨_, rfl, .callShutdown w rest hq⟩
      next => exact ⟨s, rfl, .stay _ nofun⟩
  | handleWrite w =>
      simp only [step]
      split
      next h =>
        obtain ⟨c, hok, hc⟩ :=
          TcpConnection.handleWrite_ok s.conn (answer s.conn w)
        refine ⟨_, ?_, .write w (List.isEmpty_iff.1 h) c hc⟩
        simp only [inLoop, hok, ok_bind]
      next h =>
        exact ⟨s, rfl, .stay _ fun _ _ hq => h (List.isEmpty_iff.2 hq)⟩
  | handleRead r =>
      simp only [step]
      split
      next h =>
        rw [Bool.and_eq_true, bne_iff_ne] at h
        cases r with
        | failed e => exact ⟨_, rfl, .stay _ nofun⟩
        | read data =>
            have hne : data ≠ [] := fun hnil => h.2 (by rw [hnil])
            obtain ⟨buf, hok⟩ := TcpConnection.handleRead_read s.conn
              (i := ⟨.read data, .wrote 0, [], []⟩) rfl
            rw [if_pos hne] at hok
            refine ⟨_, ?_, .read (.read data) buf⟩
            simp only [inLoop, hok]
            rfl
      next => exact ⟨s, rfl, .stay _ nofun⟩

-- ==================================================== what always holds

/-- What sending logs is no half-close. -/
theorem not_mem_of_isOutput {new : List ConnObs}
    (h : ∀ o ∈ new, o.isOutput = true) : .shutdownWrite ∉ new := by
  intro hm
  cases h _ hm

/-- The queue moves on by one. -/
theorem waiting_rest {f : ConnFunctor} {rest : List ConnFunctor}
    (hq : s.queue.functors = f :: rest) :
    s.queue.waiting = f :: { s.queue with functors := rest }.waiting := by
  unfold FunctorQueue.waiting
  rw [hq]
  rfl

/-- Order survives a step that calls the functor in front, with the state
kept. -/
theorem Orderly.order_rest (h : Orderly s) {f : ConnFunctor}
    {rest : List ConnFunctor} (hq : s.queue.functors = f :: rest) :
    ∀ pre post, { s.queue with functors := rest }.waiting
        = pre ++ .shutdownInLoop :: post →
      post = [] ∧ s.conn.state = .kDisconnecting := by
  intro pre post hw
  refine h.order (f :: pre) post ?_
  rw [waiting_rest hq, hw]
  rfl

/-- A connection that is up has not been half-closed. -/
theorem Orderly.not_half (h : Orderly s) (hs : s.conn.state = .kConnected) :
    .shutdownWrite ∉ s.conn.obs := by
  intro hmem
  have hst := h.half hmem
  rw [hs] at hst
  cases hst

/-- No shutdown of it is queued either. -/
theorem Orderly.not_queued (h : Orderly s) (hs : s.conn.state = .kConnected) :
    .shutdownInLoop ∉ s.queue.waiting := by
  intro hmem
  obtain ⟨pre, post, hw⟩ := List.append_of_mem hmem
  have hst := (h.order pre post hw).2
  rw [hs] at hst
  cases hst

/-- A `handleWrite` half-closes only what is being shut down. -/
theorem Orderly.half_write (h : Orderly s) {w : WriteResult}
    {c : TcpConnection} (hc : s.conn.Wrote w c)
    (hmem : .shutdownWrite ∈ c.obs) : s.conn.state = .kDisconnecting := by
  obtain ⟨new, hnew, hlog⟩ := hc.logged
  by_contra hst
  -- then nothing but output was logged
  have hobs : c.obs = s.conn.obs ++ new := by
    rcases hlog with ⟨-, hlog⟩ | ⟨-, hlog⟩
    · have hclosing : TcpConnection.closing s.conn.state = [] := if_neg hst
      rw [hlog.obs, hclosing, List.append_nil]
    · exact hlog.obs
  rw [hobs] at hmem
  rcases List.mem_append.1 hmem with hmem | hmem
  · exact hst (h.half hmem)
  · exact not_mem_of_isOutput hnew hmem

theorem orderly_moves {a : ConnAct} (h : Orderly s) (hm : Moves s a s') :
    Orderly s' := by
  cases hm with
  | stay => exact h
  | send data hs =>
      refine ⟨h.up, fun pre post hw => ?_, h.half⟩
      exfalso
      have hmem : .shutdownInLoop
          ∈ (s.queue.push (.sendInLoop data)).waiting := by
        rw [hw]
        exact List.mem_append_cons_self
      rw [FunctorQueue.waiting_push] at hmem
      rcases List.mem_append.1 hmem with hmem | hmem
      · exact h.not_queued hs hmem
      · cases List.mem_singleton.1 hmem
  | shutdown hs =>
      refine ⟨.inr rfl, fun pre post hw => ⟨?_, rfl⟩, fun _ => rfl⟩
      rw [FunctorQueue.waiting_push] at hw
      rcases List.eq_nil_or_concat post with rfl | ⟨post', x, rfl⟩
      · rfl
      · -- the shutdown was queued before: the connection is not up
        exfalso
        rw [List.concat_eq_append, ← List.cons_append,
          ← List.append_assoc] at hw
        obtain ⟨hw', -⟩ := List.append_inj' hw rfl
        refine h.not_queued hs ?_
        rw [hw']
        exact List.mem_append_cons_self
  | swap hq =>
      refine ⟨h.up, fun pre post hw => ?_, h.half⟩
      rw [FunctorQueue.waiting_swap hq] at hw
      exact h.order pre post hw
  | callSend w data rest hq c hc =>
      obtain ⟨new, hlog, hnew⟩ := hc.logged
      refine ⟨h.up.congr hc.state, fun pre post hw => ?_, fun hmem => ?_⟩
      · rw [hc.state]
        exact h.order_rest hq pre post hw
      · rw [hc.state]
        rw [show c.obs = _ from hlog.obs] at hmem
        rcases List.mem_append.1 hmem with hmem | hmem
        · exact h.half hmem
        · exact absurd hmem (not_mem_of_isOutput hnew)
  | callShutdown w rest hq =>
      have hst := (h.order [] _ (waiting_rest hq)).2
      have hsame := TcpConnection.state_shutdownInLoop s.conn
      refine ⟨h.up.congr hsame, fun pre post hw => ?_,
        fun _ => hsame.trans hst⟩
      rw [hsame]
      exact h.order_rest hq pre post hw
  | write w hq c hc =>
      refine ⟨h.up.congr hc.state, fun pre post hw => ?_, fun hmem => ?_⟩
      · rw [hc.state]
        exact h.order pre post hw
      · rw [hc.state]
        exact h.half_write hc hmem
  | read r buf =>
      refine ⟨h.up, h.order, fun hmem => ?_⟩
      rcases List.mem_append.1 hmem with hmem | hmem
      · exact h.half hmem
      · cases List.mem_singleton.1 hmem

-- ======================================================= loss and no loss

/-- More entries in the log: every half-close among them must find all
taken. -/
theorem noLoss_append {new : List ConnObs}
    (hobs : s'.conn.obs = s.conn.obs ++ new) (hsent : s'.sent = s.sent) :
    NoLoss s' ↔ NoLoss s
      ∧ AtEach (fun pre o _ => o = .shutdownWrite →
          accepted (s.conn.obs ++ pre) = s.sent.flatten) new := by
  unfold NoLoss
  rw [hobs, hsent]
  exact atEach_append

/-- No half-close is among them. -/
theorem noLoss_of_not_mem {new : List ConnObs}
    (hobs : s'.conn.obs = s.conn.obs ++ new) (hsent : s'.sent = s.sent)
    (hnew : .shutdownWrite ∉ new) (h : NoLoss s) : NoLoss s' := by
  refine (noLoss_append hobs hsent).2 ⟨h, fun pre o post hn ho => ?_⟩
  subst ho
  refine absurd ?_ hnew
  rw [hn]
  exact List.mem_append_cons_self

/-- A half-close is the last of them. -/
theorem noLoss_closing {new : List ConnObs}
    (hobs : s'.conn.obs = s.conn.obs ++ (new ++ [.shutdownWrite]))
    (hsent : s'.sent = s.sent) (hnew : .shutdownWrite ∉ new) :
    NoLoss s' ↔ NoLoss s
      ∧ accepted (s.conn.obs ++ new) = s.sent.flatten := by
  rw [noLoss_append hobs hsent, atEach_snoc]
  refine and_congr_right fun _ => ⟨fun h => h.2 rfl, fun h => ⟨?_, fun _ => h⟩⟩
  intro pre o post hn ho
  subst ho
  refine absurd ?_ hnew
  rw [hn]
  exact List.mem_append_cons_self

/-- Before a half-close there is no loss, whatever was sent. -/
theorem noLoss_of_not_half (h : .shutdownWrite ∉ s.conn.obs) : NoLoss s := by
  intro pre o post hobs ho
  subst ho
  refine absurd ?_ h
  rw [hobs]
  exact List.mem_append_cons_self

/-- A loss is not made good: no step after a half-close adds to what was
sent. -/
theorem noLoss_of_moves {a : ConnAct} (hJ : Orderly s) (hm : Moves s a s')
    (h : NoLoss s') : NoLoss s := by
  cases hm with
  | stay => exact h
  | send data hs => exact noLoss_of_not_half (hJ.not_half hs)
  | shutdown => exact h
  | swap => exact h
  | callSend w data rest hq c hc =>
      obtain ⟨new, hlog, -⟩ := hc.logged
      exact ((noLoss_append hlog.obs (by rfl)).1 h).1
  | callShutdown w rest hq =>
      by_cases hw : s.conn.channel.isWriting = true
      · unfold NoLoss at h
        simp only [TcpConnection.shutdownInLoop_of_writing hw] at h
        exact h
      · rw [Bool.not_eq_true] at hw
        have hobs : s.conn.shutdownInLoop.obs
            = s.conn.obs ++ [.shutdownWrite] := by
          rw [TcpConnection.shutdownInLoop_eq hw]
          rfl
        exact ((noLoss_append hobs (by rfl)).1 h).1
  | write w hq c hc =>
      obtain ⟨new, -, hlog⟩ := hc.logged
      rcases hlog with ⟨-, hlog⟩ | ⟨-, hlog⟩
      · exact ((noLoss_append hlog.obs (by rfl)).1 h).1
      · exact ((noLoss_append hlog.obs (by rfl)).1 h).1
  | read r buf => exact ((noLoss_append (by rfl) (by rfl)).1 h).1

/-- A write event drains the output of a connection that is being shut
down, while messages wait in the queue. -/
def Overtakes (s : ConnThreads) (a : ConnAct) : Prop :=
  ∃ w, a = .handleWrite w ∧ s.queue.functors = []
    ∧ s.conn.state = .kDisconnecting ∧ s.conn.Drains (answer s.conn w)
    ∧ s.queuedBytes ≠ []

/-- The half-close of a `handleWrite`: all the kernel has taken so far. -/
theorem accepted_at_closing {w : WriteResult} {c : TcpConnection}
    {new : List ConnObs} (hc : s.conn.Wrote w c) (hd : s.conn.Drains w)
    (hlog : s.conn.Logged (new ++ TcpConnection.closing s.conn.state) c) :
    accepted (s.conn.obs ++ new) = s.conn.stream := by
  rw [← hc.stream]
  unfold TcpConnection.stream
  rw [hc.drained hd, hlog.accepted_obs, accepted_append, accepted_append,
    TcpConnection.accepted_closing, List.append_nil, List.append_nil]

theorem not_noLoss_of_overtakes {a : ConnAct} (h : Delivers s)
    (hm : Moves s a s') (hover : Overtakes s a) : ¬ NoLoss s' := by
  obtain ⟨w, rfl, hq, hst, hd, hne⟩ := hover
  cases hm with
  | stay _ ha => exact absurd hq (ha w rfl)
  | write _ _ c hc =>
      intro hloss
      obtain ⟨new, hnew, hlog⟩ := hc.logged
      rcases hlog with ⟨-, hlog⟩ | ⟨hnot, -⟩
      · have hacc := accepted_at_closing hc hd hlog
        have hclosing : TcpConnection.closing s.conn.state
            = [.shutdownWrite] := if_pos hst
        rw [hclosing] at hlog
        obtain ⟨-, hall⟩ := (noLoss_closing (s := s) hlog.obs (by rfl)
          (not_mem_of_isOutput hnew)).1 hloss
        rw [hacc, ← h.stream] at hall
        exact hne (List.self_eq_append_right.1 hall)
      · exact hnot hd

/-- The answer is a fault only after the half-close. -/
theorem noFault_answer {c : TcpConnection} (h : .shutdownWrite ∉ c.obs)
    (w : WriteResult) : (answer c w).NoFault := by
  unfold answer
  rw [if_neg h]
  cases w with
  | wrote n => exact ⟨nofun, nofun⟩
  | failed e => exact ⟨nofun, nofun⟩

/-- A message in front of the queue. -/
theorem queuedBytes_rest {f : ConnFunctor} {rest : List ConnFunctor}
    (hq : s.queue.functors = f :: rest) (c : TcpConnection) :
    s.queuedBytes = f.data
      ++ queuedBytes { s with
          conn := c
          queue := { s.queue with functors := rest } } := by
  unfold queuedBytes
  rw [waiting_rest hq, List.flatMap_cons]

/-- The queued shutdown finds nothing queued behind it, and half-closes
only when nothing is buffered. -/
theorem Delivers.noLoss_shutdown (h : Delivers s) {rest : List ConnFunctor}
    (hq : s.queue.functors = .shutdownInLoop :: rest) :
    NoLoss { s with
      conn := s.conn.shutdownInLoop
      queue := { s.queue with functors := rest } } := by
  by_cases hw : s.conn.channel.isWriting = true
  · unfold NoLoss
    simp only [TcpConnection.shutdownInLoop_of_writing hw]
    exact h.noLoss
  · have hempty : s.conn.outputBuffer.content = [] := by
      by_contra hne
      exact hw (h.balanced.2 hne)
    have hnone : s.queuedBytes = [] := by
      unfold queuedBytes
      rw [waiting_rest hq, (h.orderly.order [] _ (waiting_rest hq)).1]
      rfl
    rw [Bool.not_eq_true] at hw
    have hobs : s.conn.shutdownInLoop.obs
        = s.conn.obs ++ ([] ++ [.shutdownWrite]) := by
      rw [TcpConnection.shutdownInLoop_eq hw]
      rfl
    have hstream := h.stream
    unfold TcpConnection.stream at hstream
    rw [hnone, hempty, List.append_nil, List.append_nil] at hstream
    refine (noLoss_closing (s := s) hobs (by rfl) List.not_mem_nil).2
      ⟨h.noLoss, ?_⟩
    rw [List.append_nil]
    exact hstream

/-- A write event half-closes only when nothing is queued, unless it
overtakes. -/
theorem Delivers.noLoss_write (h : Delivers s) {w : WriteResult}
    (hq : s.queue.functors = []) (hC : ¬ Overtakes s (.handleWrite w))
    {c : TcpConnection} (hc : s.conn.Wrote (answer s.conn w) c) :
    NoLoss { s with conn := c } := by
  obtain ⟨new, hnew, hlog⟩ := hc.logged
  rcases hlog with ⟨hd, hlog⟩ | ⟨-, hlog⟩
  · by_cases hst : s.conn.state = .kDisconnecting
    · have hnone : s.queuedBytes = [] := by
        by_contra hne
        exact hC ⟨w, rfl, hq, hst, hd, hne⟩
      have hacc := accepted_at_closing hc hd hlog
      have hclosing : TcpConnection.closing s.conn.state
          = [.shutdownWrite] := if_pos hst
      rw [hclosing] at hlog
      refine (noLoss_closing (s := s) hlog.obs (by rfl)
        (not_mem_of_isOutput hnew)).2 ⟨h.noLoss, ?_⟩
      rw [hacc, ← h.stream, hnone, List.append_nil]
    · have hclosing : TcpConnection.closing s.conn.state = [] := if_neg hst
      rw [hclosing, List.append_nil] at hlog
      exact noLoss_of_not_mem hlog.obs (by rfl) (not_mem_of_isOutput hnew)
        h.noLoss
  · exact noLoss_of_not_mem hlog.obs (by rfl) (not_mem_of_isOutput hnew)
      h.noLoss

theorem delivers_moves {a : ConnAct} (h : Delivers s) (hm : Moves s a s')
    (hC : ¬ Overtakes s a) : Delivers s' := by
  have hJ := orderly_moves h.orderly hm
  cases hm with
  | stay => exact h
  | send data hs =>
      refine ⟨hJ, h.balanced, ?_, noLoss_of_not_half (h.orderly.not_half hs)⟩
      unfold queuedBytes
      rw [FunctorQueue.waiting_push, List.flatMap_append, List.flatten_concat,
        ← List.append_assoc]
      show s.conn.stream ++ s.queuedBytes ++ _ = _
      rw [h.stream]
      simp [ConnFunctor.data]
  | shutdown hs =>
      refine ⟨hJ, h.balanced, ?_, h.noLoss⟩
      unfold queuedBytes
      rw [FunctorQueue.waiting_push, List.flatMap_append]
      show s.conn.stream ++ (s.queuedBytes ++ []) = _
      rw [List.append_nil, h.stream]
  | swap hq =>
      refine ⟨hJ, h.balanced, ?_, h.noLoss⟩
      unfold queuedBytes
      rw [FunctorQueue.waiting_swap hq]
      exact h.stream
  | callSend w data rest hq c hc =>
      obtain ⟨new, hlog, hnew⟩ := hc.logged
      have hbytes := queuedBytes_rest hq c
      -- after the half-close the message is empty, and nothing is lost
      have hok : (answer s.conn w).NoFault ∨ data = [] := by
        by_cases hmem : .shutdownWrite ∈ s.conn.obs
        · rw [h.drained hmem] at hbytes
          exact .inr (List.append_eq_nil_iff.1 hbytes.symm).1
        · exact .inl (noFault_answer hmem w)
      refine ⟨hJ, hc.balanced h.balanced, ?_,
        noLoss_of_not_mem hlog.obs (by rfl) (not_mem_of_isOutput hnew) h.noLoss⟩
      have hstream := h.stream
      rw [hbytes, ← List.append_assoc] at hstream
      show c.stream ++ _ = _
      rw [hc.stream h.orderly.up.ne_disconnected hok]
      exact hstream
  | callShutdown w rest hq =>
      have hstream := h.stream
      rw [queuedBytes_rest hq s.conn.shutdownInLoop] at hstream
      refine ⟨hJ, TcpConnection.balanced_shutdownInLoop h.balanced, ?_,
        h.noLoss_shutdown hq⟩
      show s.conn.shutdownInLoop.stream ++ _ = _
      rw [TcpConnection.stream_shutdownInLoop]
      exact hstream
  | write w hq c hc =>
      refine ⟨hJ, hc.balanced h.balanced, ?_, h.noLoss_write hq hC hc⟩
      show c.stream ++ s.queuedBytes = s.sent.flatten
      rw [hc.stream]
      exact h.stream
  | read r buf =>
      refine ⟨hJ, h.balanced, ?_, noLoss_of_not_mem (by rfl) (by rfl)
        (by simp) h.noLoss⟩
      have hacc : accepted (s.conn.obs ++ [.messageCb])
          = accepted s.conn.obs := by
        rw [accepted_append]
        exact List.append_nil _
      show accepted (s.conn.obs ++ [.messageCb]) ++ _ ++ _ = _
      rw [hacc]
      exact h.stream

-- ============================================================ every run

/-- In a run of the loop and the client, the kernel has taken every
message by the time of each half-close, if and only if no write event
overtakes a message. -/
theorem noLoss_iff_not_overtakes (fd : Nat)
    (writeCompleteCb highWaterMarkCb : Bool) (acts : List ConnAct) :
    (∃ s, run step (create fd writeCompleteCb highWaterMarkCb) acts = .ok s
        ∧ NoLoss s)
      ↔ Along step (fun s a => ¬ Overtakes s a)
        (create fd writeCompleteCb highWaterMarkCb) acts := by
  have hmoves : ∀ {s s' : ConnThreads} {a : ConnAct}, s.step a = .ok s' →
      Moves s a s' := by
    intro s s' a hok
    obtain ⟨s'', hok', hm⟩ := step_moves s a
    rw [hok] at hok'
    cases hok'
    exact hm
  refine run_exact (I := Delivers) (J := Orderly) (P := NoLoss) ?_ ?_ ?_
    (fun _ h => h.noLoss)
    (delivers_create fd writeCompleteCb highWaterMarkCb)
  · intro s a h hC
    obtain ⟨s', hok, hm⟩ := step_moves s a
    exact ⟨s', hok, delivers_moves h hm hC⟩
  · intro s a s' h hC hok
    have hm := hmoves hok
    exact ⟨orderly_moves h.orderly hm,
      not_noLoss_of_overtakes h hm (not_not.1 hC)⟩
  · intro s a s' hJ hlost hok
    have hm := hmoves hok
    exact ⟨orderly_moves hJ hm, fun h => hlost (noLoss_of_moves hJ hm h)⟩

/-- The client sends twice and shuts down; the first message is partly
written, and the write event that finishes it comes before the loop has
looked at its queue. -/
def shutdownOvertakes : List ConnAct :=
  [.send [1, 2], .swap, .call (.wrote 1), .send [3], .shutdown,
    .handleWrite (.wrote 1)]

theorem shutdown_overtakes_send :
    ∃ s, run step (create 9 false false) shutdownOvertakes = .ok s
      ∧ ¬ NoLoss s := by
  have hrun : (run step (create 9 false false) shutdownOvertakes).map
      (fun s => (s.conn.obs, s.sent))
      = .ok ([.updateChannel 3#32, .connectionCb true, .accepted [1],
          .updateChannel 7#32, .accepted [2], .updateChannel 3#32,
          .shutdownWrite], [[1, 2], [3]]) := by
    decide +kernel
  obtain ⟨s, hs, hparts⟩ := map_ok_inv hrun
  obtain ⟨hobs, hsent⟩ := Prod.mk.inj hparts
  refine ⟨s, hs, fun h => ?_⟩
  have hacc := h [.updateChannel 3#32, .connectionCb true, .accepted [1],
    .updateChannel 7#32, .accepted [2], .updateChannel 3#32] .shutdownWrite []
    hobs rfl
  rw [hsent] at hacc
  cases hacc

end ConnThreads

end Cobra
