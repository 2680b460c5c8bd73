/-
Teardown: `ConnectionDestroyed` of an established connection, after any
history of it and of the other channels of its loop, takes the
connection down, tells the user once and makes the poller forget it;
exactly if the connection is not half closed.

# Two ways to be

After `ConnectionEstablished` a connection is up and reads, or it is gone
with no interest and one down notification (`Lived`). Only
`ConnectionDestroyed` itself and `handleClose` go from the one to the
other, and both empty the interest on the way.

# The half-closed connection

`ConnectionDestroyed` takes the first kind down only in `kConnected`. In
`kDisconnecting`, after a `shutdown` the peer has not answered yet, it
goes straight to `Channel::remove` with the read interest still there,
and the assertion `isNoneEvent()` fails (`destroyed_while_disconnecting`).
The functor that is queued after `closeCb_` never meets that state
(`destroyed_of_closeCb`); `Server::~Server` can.
-/
import Cobra.ConnPoller
import Cobra.Proofs.ConnEvents
import Cobra.Proofs.Poller

namespace Cobra

open Machine

-- ============================================================== the life

namespace TcpConnection

variable {c c' : TcpConnection}

/-- The down notifications so far. -/
def downs (c : TcpConnection) : Nat := c.obs.count (.connectionCb false)

/-- A connection that was taken down, with one notification. -/
structure Gone (c : TcpConnection) : Prop where
  state : c.state = .kDisconnected
  none : c.channel.isNoneEvent = true
  downs : c.downs = 1

/-- A connection that was not. -/
structure Standing (c : TcpConnection) : Prop where
  up : Up c
  reading : c.channel.Reading
  downs : c.downs = 0
  closeCb : .closeCb ∉ c.obs

/-- Every established connection is one or the other. -/
def Lived (c : TcpConnection) : Prop := Standing c ∨ Gone c

theorem Logged.downs {new : List ConnObs} (h : Logged c new c') :
    c'.downs = c.downs + new.count (.connectionCb false) := by
  unfold TcpConnection.downs
  rw [h.obs, List.count_append]

theorem Quiet.downs (h : Quiet c c') : c'.downs = c.downs := by
  obtain ⟨new, hlog, hquiet⟩ := h.logged
  have hnot : ConnObs.connectionCb false ∉ new := by
    intro hm
    have hq := hquiet _ hm
    revert hq
    decide
  rw [hlog.downs, List.count_eq_zero_of_not_mem hnot, Nat.add_zero]

theorem Gone.quiet (h : Gone c) (hq : Quiet c c') : Gone c' where
  state := (hq.down ⟨h.state, h.none⟩).1
  none := (hq.down ⟨h.state, h.none⟩).2
  downs := hq.downs.trans h.downs

theorem Standing.quiet (h : Standing c) (hq : Quiet c c') : Standing c' where
  up := hq.up h.up
  reading := hq.reading h.reading
  downs := hq.downs.trans h.downs
  closeCb := by
    obtain ⟨new, hlog, hquiet⟩ := hq.logged
    rw [hlog.obs]
    intro hm
    rcases List.mem_append.1 hm with hm | hm
    · exact h.closeCb hm
    · have hq := hquiet _ hm
      revert hq
      decide

theorem Lived.quiet (h : Lived c) (hq : Quiet c c') : Lived c' :=
  h.imp (fun h => h.quiet hq) (fun h => h.quiet hq)

theorem downs_log (c : TcpConnection) {o : ConnObs}
    (ho : o ≠ .connectionCb false) : (c.log o).downs = c.downs := by
  unfold downs log
  rw [List.count_append, List.count_singleton]
  simp [ho]

theorem Gone.log (h : Gone c) {o : ConnObs} (ho : o ≠ .connectionCb false) :
    Gone (c.log o) :=
  ⟨h.state, h.none, (downs_log c ho).trans h.downs⟩

theorem Standing.log (h : Standing c) {o : ConnObs}
    (ho : o ≠ .connectionCb false) (ho' : o ≠ .closeCb) :
    Standing (c.log o) := by
  refine ⟨h.up, h.reading, (downs_log c ho).trans h.downs, fun hm => ?_⟩
  rcases List.mem_append.1 hm with hm | hm
  · exact h.closeCb hm
  · exact ho' (List.mem_singleton.1 hm).symm

theorem Lived.ne_connecting (h : Lived c) : c.state ≠ .kConnecting := by
  intro hstate
  rcases h with h | h
  · rcases h.up with hup | hup <;> exact absurd (hstate.symm.trans hup) nofun
  · exact absurd (hstate.symm.trans h.state) nofun

/-- Taking a connection down, whoever does it. -/
theorem callConnectionCb_gone (h : c.downs = 0) (ops : List UserOp) :
    Holds (c.disconnect.callConnectionCb ops) Gone := by
  have hgone : Gone (c.disconnect.log (.connectionCb false)) := by
    refine ⟨rfl, Channel.isNoneEvent_disableAll _, ?_⟩
    unfold downs at h ⊢
    show List.count (ConnObs.connectionCb false)
      (c.obs ++ [.updateChannel kNoneEvent] ++ [.connectionCb false]) = 1
    rw [List.count_append, List.count_append, h]
    decide
  unfold callConnectionCb
  exact holds_mono (userOps_quiet ops _) fun c' hq => hgone.quiet hq

/-- `handleClose` is for connections that are up. -/
theorem handleClose_lived (h : Lived c) {ops : List UserOp}
    (hok : c.handleClose ops = .ok c') : Lived c' := by
  unfold handleClose at hok
  obtain ⟨u, hreq, hok⟩ := bind_ok_inv hok
  have hup : c.state = .kConnected ∨ c.state = .kDisconnecting :=
    require_inv hreq
  obtain ⟨c₁, hcall, hok⟩ := bind_ok_inv hok
  cases hok
  have hdowns : (c.log .handleClose).downs = 0 := by
    rw [downs_log c (o := .handleClose) nofun]
    rcases h with h | h
    · exact h.downs
    · rw [h.state] at hup
      rcases hup with hup | hup <;> cases hup
  exact .inr (((callConnectionCb_gone hdowns ops).of_ok hcall).log nofun)

theorem handleRead_lived (h : Lived c) {i : EventInput}
    (hok : c.handleRead i = .ok c') : Lived c' := by
  cases hr : i.read with
  | failed e =>
      rw [handleRead_failed c hr] at hok
      cases hok
      exact h
  | read stream =>
      obtain ⟨buf, heq⟩ := handleRead_read c hr
      have hbuf := h.quiet (inputBuffer_quiet c buf)
      rw [heq] at hok
      split at hok
      · unfold callMessageCb at hok
        refine Lived.quiet ?_ ((userOps_quiet i.onMessage _).of_ok hok)
        exact hbuf.imp (fun h => h.log nofun nofun) (fun h => h.log nofun)
      · exact handleClose_lived hbuf hok

theorem handleEventWithGuard_lived (h : Lived c) {i : EventInput}
    (hok : c.handleEventWithGuard i = .ok c') : Lived c' := by
  rw [handleEventWithGuard_eq] at hok
  obtain ⟨c₁, hclose, hok⟩ := bind_ok_inv hok
  obtain ⟨c₂, hread, hok⟩ := bind_ok_inv hok
  have h₁ : Lived c₁ := guarded_inv h (handleClose_lived h) hclose
  have h₂ : Lived c₂ := guarded_inv h₁ (handleRead_lived h₁) hread
  exact guarded_inv h₂
    (fun h => h₂.quiet ((handleWrite_quiet c₂ i.write).of_ok h)) hok

/-- `ConnectionDestroyed` takes down what is connected. -/
theorem takeDown_connected (h : Standing c) (hs : c.state = .kConnected)
    (ops : List UserOp) :
    Holds (c.takeDown ops) fun c' => Evolves c c' ∧ Gone c' := by
  unfold takeDown
  rw [hs]
  obtain ⟨c', hcall, hgone⟩ := callConnectionCb_gone h.downs ops
  exact ⟨c', hcall, (evolves_disconnect c).trans
    ((callConnectionCb_evolves _ ops).of_ok hcall), hgone⟩

/-- It does nothing about any other connection. -/
theorem takeDown_other (hs : c.state ≠ .kConnected) (ops : List UserOp) :
    c.takeDown ops = .ok c := by
  unfold takeDown
  exact if_neg (by simpa using hs)

/-- A connection in its first callback and after it. -/
theorem ConnectionEstablished_standing {fd : Nat} {wcb hwm : Bool}
    {ops : List UserOp}
    (hok : (create fd wcb hwm).ConnectionEstablished ops = .ok c') :
    Standing c' ∧ ∃ new, .removeChannel ∉ new
      ∧ c'.obs = .updateChannel kReadEvent :: new ∧ c'.channel.fd = fd
      ∧ c'.channel.events = lastEvents kReadEvent new := by
  have hread : (established fd wcb hwm).channel.events = kReadEvent :=
    BitVec.zero_or
  have hobs : (established fd wcb hwm).obs
      = [.updateChannel kReadEvent, .connectionCb true] := by
    rw [← hread]
    rfl
  have hq := (userOps_quiet ops (established fd wcb hwm)).of_ok hok
  refine ⟨?_, ?_⟩
  · refine Standing.quiet ⟨.inl rfl, Channel.reading_enableReading _, ?_, ?_⟩ hq
    · unfold downs
      rw [hobs]
      decide
    · rw [hobs]
      decide
  · obtain ⟨new, hlog, hnot⟩ := hq.evolves
    refine ⟨.connectionCb true :: new, ?_, ?_, hlog.fd, ?_⟩
    · simpa using hnot
    · rw [hlog.obs, hobs]
      rfl
    · rw [hlog.events, hread]
      rfl

end TcpConnection

namespace ConnEvents

open TcpConnection

theorem step_lived {s s' : ConnEvents} (h : Lived s.conn) {a : EventAct}
    (hok : s.step a = .ok s') : Lived s'.conn := by
  cases a with
  | poll revents =>
      simp only [step] at hok
      split at hok
      · cases hok
        exact h.imp (fun h => ⟨h.up, h.reading, h.downs, h.closeCb⟩)
          (fun h => ⟨h.state, h.none, h.downs⟩)
      · cases hok
        exact h
  | handleEvent i =>
      simp only [step] at hok
      split at hok
      · obtain ⟨c, hc, hok⟩ := bind_ok_inv hok
        cases hok
        exact handleEventWithGuard_lived h hc
      · cases hok
        exact h
  | user op =>
      obtain ⟨c, hc, hok⟩ := bind_ok_inv hok
      cases hok
      exact h.quiet ((userOp_quiet s.conn op).of_ok hc)
  | output a =>
      obtain ⟨c, hc, hok⟩ := bind_ok_inv hok
      cases hok
      exact h.quiet ((outputStep_quiet s.conn a).of_ok hc)

end ConnEvents

-- ========================================================== the poller

namespace ConnPoller

open TcpConnection

variable {n n' : ConnPoller} {self : Nat}

/-- One call for a registered channel. -/
theorem call_watches {pm : Poller × ChannelMem} {o : ConnObs}
    (h : pm.1.Watches pm.2 self) (ho : o ≠ .removeChannel) :
    Holds (call self pm o) fun r => r.1.Watches r.2 self
      ∧ (r.2 self).fd = (pm.2 self).fd
      ∧ (r.2 self).events = o.events (pm.2 self).events := by
  cases o with
  | updateChannel events => exact Poller.UpdateChannel_watches h events
  | removeChannel => exact absurd rfl ho
  | _ => exact holds_ok ⟨h, rfl, rfl⟩

/-- The calls for a registered channel, unless it is removed. -/
theorem calls_watches {l : List ConnObs} (hl : .removeChannel ∉ l) :
    ∀ pm : Poller × ChannelMem, pm.1.Watches pm.2 self →
      Holds (run (call self) pm l) fun r => r.1.Watches r.2 self
        ∧ (r.2 self).fd = (pm.2 self).fd
        ∧ (r.2 self).events = lastEvents (pm.2 self).events l := by
  induction l with
  | nil =>
      intro pm h
      exact holds_ok ⟨h, rfl, rfl⟩
  | cons o l ih =>
      intro pm h
      rw [List.mem_cons, not_or] at hl
      obtain ⟨pm₁, hcall, h₁, hfd, hevents⟩ := call_watches h (Ne.symm hl.1)
      rw [run_cons_ok l hcall]
      refine holds_mono (ih hl.2 pm₁ h₁) fun r hr => ?_
      refine ⟨hr.1, hr.2.1.trans hfd, ?_⟩
      rw [hr.2.2, hevents]
      rfl

/-- The poller's view of the channel is the connection's. -/
structure Informed (n : ConnPoller) : Prop where
  watches : n.poller.Watches n.chans n.self
  fd : (n.chans n.self).fd = n.life.conn.channel.fd
  events : (n.chans n.self).events = n.life.conn.channel.events

/-- The entries that are new. -/
theorem drop_obs {life life' : ConnEvents} {new : List ConnObs}
    (h : life'.conn.obs = life.conn.obs ++ new) :
    life'.conn.obs.drop life.conn.obs.length = new := by
  rw [h]
  exact List.drop_left

theorem replay_informed (h : Informed n) {life : ConnEvents}
    {new : List ConnObs} (hobs : life.conn.obs = n.life.conn.obs ++ new)
    (hnew : .removeChannel ∉ new)
    (hfd : life.conn.channel.fd = n.life.conn.channel.fd)
    (hevents : life.conn.channel.events
      = lastEvents n.life.conn.channel.events new) :
    Holds (n.replay life) fun n' => Informed n' ∧ n'.life = life := by
  obtain ⟨pm, hrun, hwatch, hfd', hevents'⟩ := 
    calls_watches hnew (n.poller, n.chans) h.watches
  unfold replay
  simp only [drop_obs hobs]
  rw [hrun]
  refine holds_ok ⟨⟨hwatch, ?_, ?_⟩, rfl⟩
  · exact (hfd'.trans h.fd).trans hfd.symm
  · exact (hevents'.trans (by rw [h.events])).trans hevents.symm

/-- What the calls for other channels leave us with. -/
theorem Informed.keeps (h : Informed n) {pm : Poller × ChannelMem}
    (hk : Poller.Keeps n.poller n.chans n.self pm) :
    Informed { n with poller := pm.1, chans := pm.2 } :=
  ⟨hk.watches h.watches, hk.fd.trans h.fd, hk.events.trans h.events⟩

/-- Not yet established. -/
structure New (n : ConnPoller) : Prop where
  life : ∃ wcb hwm, n.life = ⟨.create (n.chans n.self).fd wcb hwm, false⟩
  ready : n.poller.Ready n.chans n.self

theorem New.keeps (h : New n) {pm : Poller × ChannelMem}
    (hk : Poller.Keeps n.poller n.chans n.self pm) :
    New { n with poller := pm.1, chans := pm.2 } := by
  obtain ⟨wcb, hwm, hlife⟩ := h.life
  refine ⟨⟨wcb, hwm, ?_⟩, hk.ready h.ready⟩
  show n.life = ⟨.create (pm.2 n.self).fd wcb hwm, false⟩
  rw [hk.fd]
  exact hlife

/-- What holds of a connection and its poller: it is new, or both agree
about its channel. -/
def Inv (n : ConnPoller) : Prop :=
  New n ∨ Informed n ∧ Lived n.life.conn

theorem Inv.keeps (h : Inv n) {pm : Poller × ChannelMem}
    (hk : Poller.Keeps n.poller n.chans n.self pm) :
    Inv { n with poller := pm.1, chans := pm.2 } :=
  h.imp (fun h => h.keeps hk) (fun h => ⟨h.1.keeps hk, h.2⟩)

theorem Inv.pollerInv (h : Inv n) : n.poller.Inv n.chans := by
  rcases h with h | h
  · exact h.ready.1
  · exact h.1.watches.inv

theorem inv_create (usePoll : Bool) (fds : Nat → Nat) (self : Nat)
    (wcb hwm : Bool) : Inv (create usePoll fds self wcb hwm) :=
  .inl ⟨⟨wcb, hwm, rfl⟩, Poller.ready_newDefaultPoller usePoll rfl⟩

theorem New.not_established (h : New n) : n.isEstablished = false := by
  obtain ⟨wcb, hwm, hlife⟩ := h.life
  unfold isEstablished
  rw [hlife]
  rfl

/-- A new connection is established, and from then on the poller watches
it. -/
theorem New.established (h : New n) {ops : List UserOp} {c : TcpConnection}
    (hc : n.life.conn.ConnectionEstablished ops = .ok c)
    (hok : n.replay { n.life with conn := c } = .ok n') :
    Informed n' ∧ Lived n'.life.conn := by
  obtain ⟨wcb, hwm, hlife⟩ := h.life
  rw [hlife] at hc
  obtain ⟨hstand, new, hnew, hobs, hfd, hevents⟩ :=
    ConnectionEstablished_standing hc
  unfold replay at hok
  obtain ⟨pm, hrun, hok⟩ := bind_ok_inv hok
  cases hok
  have hrun := mapError_ok_inv hrun
  rw [hlife] at hrun
  simp only [TcpConnection.create, List.length_nil, List.drop_zero, hobs] at hrun
  -- the first call registers the channel
  obtain ⟨pm₁, hfirst, hrest⟩ := run_cons_inv hrun
  obtain ⟨hwatch, hfd₁, hevents₁⟩ :=
    Poller.UpdateChannel_ready h.ready (by decide) hfirst
  obtain ⟨hwatch', hfd', hevents'⟩ := 
    (calls_watches hnew pm₁ hwatch).of_ok hrest
  refine ⟨⟨hwatch', ?_, ?_⟩, .inl hstand⟩
  · exact (hfd'.trans hfd₁).trans hfd.symm
  · rw [hevents', hevents₁]
    exact hevents.symm

theorem step_inv (h : Inv n) {a : NetAct} (hok : n.step a = .ok n') :
    Inv n' := by
  cases a with
  | ConnectionEstablished ops =>
      obtain ⟨c, hc, hok⟩ := bind_ok_inv hok
      have hc := mapError_ok_inv hc
      rcases h with h | h
      · exact .inr (h.established hc hok)
      · -- an established connection fails the assertion
        unfold TcpConnection.ConnectionEstablished at hc
        obtain ⟨u, hreq, -⟩ := bind_ok_inv hc
        exact absurd (require_inv hreq) h.2.ne_connecting
  | life a =>
      simp only [step] at hok
      rcases h with h | ⟨hinf, hlived⟩
      · rw [h.not_established] at hok
        cases hok
        exact .inl h
      · split at hok
        · obtain ⟨life, hlife, hok⟩ := bind_ok_inv hok
          have hlife := mapError_ok_inv hlife
          obtain ⟨new, hobs, hnew, hfd, hevents⟩ :=
            ConnEvents.step_informed hlife
          obtain ⟨hinf', hsame⟩ :=
            (replay_informed hinf hobs hnew hfd hevents).of_ok hok
          refine .inr ⟨hinf', ?_⟩
          rw [hsame]
          exact ConnEvents.step_lived hlived hlife
        · cases hok
          exact .inr ⟨hinf, hlived⟩
  | UpdateChannel c events =>
      simp only [step] at hok
      split at hok
      next hne =>
        obtain ⟨pm, hupd, hok⟩ := bind_ok_inv hok
        cases hok
        have hset := Poller.setEvents_keeps h.pollerInv events hne.symm
        exact h.keeps (hset.trans (Poller.UpdateChannel_keeps hset.inv
          (mapError_ok_inv hupd) hne.symm))
      next =>
        cases hok
        exact h
  | removeChannel c =>
      simp only [step] at hok
      split at hok
      next hne =>
        obtain ⟨pm, hrem, hok⟩ := bind_ok_inv hok
        cases hok
        exact h.keeps (Poller.removeChannel_keeps h.pollerInv
          (mapError_ok_inv hrem) hne.symm)
      next =>
        cases hok
        exact h

-- =========================================================== the teardown

/-- What a teardown has to do. -/
structure TornDown (n : ConnPoller) : Prop where
  state : n.life.conn.state = .kDisconnected
  unknown : n.poller.Unknown n.life.conn.channel.fd
  down : n.life.conn.obs.count (.connectionCb false) = 1

/-- A connection that `ConnectionDestroyed` finds gone, or takes down, is
removed. -/
theorem destroyed_of_gone (h : Informed n) {ops : List UserOp}
    {c : TcpConnection} (htake : n.life.conn.takeDown ops = .ok c)
    (hev : Evolves n.life.conn c) (hgone : Gone c) :
    ∃ n', n.ConnectionDestroyed ops = .ok n' ∧ TornDown n' := by
  obtain ⟨new, hlog, hnew⟩ := hev
  have hdestroyed : n.life.conn.ConnectionDestroyed ops
      = .ok (c.log .removeChannel) := by
    unfold TcpConnection.ConnectionDestroyed TcpConnection.removeChannel
    rw [htake, ok_bind, require_bind hgone.none]
  have hobs : (c.log .removeChannel).obs
      = n.life.conn.obs ++ (new ++ [.removeChannel]) := by
    show c.obs ++ [.removeChannel] = _
    rw [hlog.obs, List.append_assoc]
  -- the calls of the way down, and the removal
  obtain ⟨pm, hrun, hwatch, hfd, hevents⟩ :=
    calls_watches hnew (n.poller, n.chans) h.watches
  have hnone : (pm.2 n.self).isNoneEvent = true := by
    unfold Channel.isNoneEvent
    rw [hevents]
    show (lastEvents (n.chans n.self).events new == kNoneEvent) = true
    rw [h.events, ← hlog.events]
    exact hgone.none
  obtain ⟨pm', hrem, hunknown⟩ := Poller.removeChannel_watches hwatch hnone
  have hcalls : run (call n.self) (n.poller, n.chans)
      (new ++ [.removeChannel]) = .ok pm' := by
    rw [run_append _ hrun, run_cons_ok [] (by exact hrem)]
    rfl
  refine ⟨{ n with
    life := { n.life with conn := c.log .removeChannel }
    poller := pm'.1
    chans := pm'.2 }, ?_, hgone.state, ?_, ?_⟩
  · unfold ConnectionDestroyed replay
    rw [hdestroyed]
    show ((run (call n.self) (n.poller, n.chans) ((c.log .removeChannel).obs.drop
      n.life.conn.obs.length)).mapError NetAssert.poller >>= _) = _
    rw [hobs, List.drop_left, hcalls]
    rfl
  · show pm'.1.Unknown c.channel.fd
    rw [hlog.fd, ← h.fd, ← hfd]
    exact hunknown
  · exact (downs_log c (o := .removeChannel) nofun).trans hgone.downs

/-- A half-closed connection fails the assertion of `Channel::remove`. -/
theorem destroyed_disconnecting (h : Standing n.life.conn)
    (hs : n.life.conn.state = .kDisconnecting) (ops : List UserOp) :
    n.ConnectionDestroyed ops = .error (.conn .remove) := by
  have htake : n.life.conn.takeDown ops = .ok n.life.conn :=
    takeDown_other (by rw [hs]; nofun) ops
  have hremove : n.life.conn.removeChannel = .error .remove := by
    unfold TcpConnection.removeChannel require
    rw [h.reading.not_none]
    rfl
  unfold ConnectionDestroyed TcpConnection.ConnectionDestroyed
  rw [htake, ok_bind, hremove]
  rfl

theorem destroyed_iff (hinf : Informed n) (hlived : Lived n.life.conn)
    (ops : List UserOp) :
    (∃ n', n.ConnectionDestroyed ops = .ok n' ∧ TornDown n')
      ↔ n.life.conn.state ≠ .kDisconnecting := by
  rcases hlived with h | h
  · rcases h.up with hs | hs
    · refine iff_of_true ?_ (by rw [hs]; nofun)
      obtain ⟨c, htake, hev, hgone⟩ := takeDown_connected h hs ops
      exact destroyed_of_gone hinf htake hev hgone
    · refine iff_of_false (fun hok => ?_) (not_not.2 hs)
      obtain ⟨n', hok, -⟩ := hok
      rw [destroyed_disconnecting h hs ops] at hok
      cases hok
  · refine iff_of_true ?_ (by rw [h.state]; nofun)
    exact destroyed_of_gone hinf
      (takeDown_other (by rw [h.state]; nofun) ops) (.refl _) h

/-- In every state an established connection can get to, whatever it and
the other channels of its loop have done, `ConnectionDestroyed` runs
through, leaves the connection disconnected and unknown to the poller,
and completes exactly one down notification, if and only if the
connection is not half closed. -/
theorem tornDown_iff_not_disconnecting (usePoll : Bool) (fds : Nat → Nat)
    (self : Nat) (writeCompleteCb highWaterMarkCb : Bool)
    {acts : List NetAct} {n : ConnPoller}
    (hrun : run step (create usePoll fds self writeCompleteCb highWaterMarkCb)
      acts = .ok n)
    (hest : n.isEstablished = true) (ops : List UserOp) :
    (∃ n', n.ConnectionDestroyed ops = .ok n' ∧ TornDown n')
      ↔ n.life.conn.state ≠ .kDisconnecting := by
  have hinv : Inv n := run_inv_all (fun _ _ _ h hok => step_inv h hok)
    (inv_create usePoll fds self writeCompleteCb highWaterMarkCb) hrun
  rcases hinv with h | h
  · rw [h.not_established] at hest
    cases hest
  · exact destroyed_iff h.1 h.2 ops

/-- The functor that is queued after `closeCb_` finds the connection
gone. -/
theorem destroyed_of_closeCb (usePoll : Bool) (fds : Nat → Nat)
    (self : Nat) (writeCompleteCb highWaterMarkCb : Bool)
    {acts : List NetAct} {n : ConnPoller}
    (hrun : run step (create usePoll fds self writeCompleteCb highWaterMarkCb)
      acts = .ok n)
    (hclose : .closeCb ∈ n.life.conn.obs) (ops : List UserOp) :
    ∃ n', n.ConnectionDestroyed ops = .ok n' ∧ TornDown n' := by
  have hinv : Inv n := run_inv_all (fun _ _ _ h hok => step_inv h hok)
    (inv_create usePoll fds self writeCompleteCb highWaterMarkCb) hrun
  rcases hinv with h | ⟨hinf, h | h⟩
  · obtain ⟨wcb, hwm, hlife⟩ := h.life
    rw [hlife] at hclose
    cases hclose
  · exact absurd hclose h.closeCb
  · exact (destroyed_iff hinf (.inr h) ops).2 (by rw [h.state]; nofun)

/-- Two other channels, a connection with pending output between them,
and the removal of the first channel. -/
def pendingOutput : List NetAct :=
  [.UpdateChannel 0 kReadEvent, .ConnectionEstablished [.send [1, 2, 3] (.wrote 1)],
    .UpdateChannel 2 kReadEvent, .UpdateChannel 0 kNoneEvent, .removeChannel 0]

theorem tornDown_pendingOutput :
    ∃ n, run step (create true id 1 true true) pendingOutput = .ok n
      ∧ ∃ n', n.ConnectionDestroyed [.shutdown] = .ok n' ∧ TornDown n' := by
  have hmap : (run step (create true id 1 true true) pendingOutput).map
      (fun n => (n.isEstablished, n.life.conn.state))
      = .ok (true, .kConnected) := by decide +kernel
  obtain ⟨n, hrun, hn⟩ := map_ok_inv hmap
  obtain ⟨hest, hstate⟩ := Prod.mk.inj hn
  refine ⟨n, hrun, (tornDown_iff_not_disconnecting true id 1 true true hrun
    hest [.shutdown]).2 ?_⟩
  rw [hstate]
  nofun

/-- A connection the user has shut down, before the peer has closed it. -/
def halfClosed : List NetAct :=
  [.ConnectionEstablished [], .life (.user .shutdown)]

/-- `Server::~Server` stops the process on a half-closed connection. -/
theorem destroyed_while_disconnecting :
    ∃ n, run step (create false id 1 false false) halfClosed = .ok n
      ∧ n.isEstablished = true
      ∧ n.ConnectionDestroyed [] = .error (.conn .remove)
      ∧ ¬ ∃ n', n.ConnectionDestroyed [] = .ok n' ∧ TornDown n' := by
  have hmap : (run step (create false id 1 false false) halfClosed).map
      (fun n => (n.isEstablished, (n.ConnectionDestroyed []).map
        (fun n' => n'.life.conn.state)))
      = .ok (true, .error (.conn .remove)) := by decide +kernel
  obtain ⟨n, hrun, hn⟩ := map_ok_inv hmap
  obtain ⟨hest, hdes⟩ := Prod.mk.inj hn
  have herror : n.ConnectionDestroyed [] = .error (.conn .remove) := by
    cases hd : n.ConnectionDestroyed [] with
    | ok n' =>
        rw [hd] at hdes
        cases hdes
    | error e =>
        rw [hd] at hdes
        exact congrArg Except.error (Except.error.inj hdes)
  refine ⟨n, hrun, hest, herror, fun h => ?_⟩
  obtain ⟨n', hok, -⟩ := h
  rw [herror] at hok
  cases hok

end ConnPoller

end Cobra
