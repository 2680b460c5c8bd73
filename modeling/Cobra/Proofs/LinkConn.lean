/-
Each side of a link is a connection on its loop: whatever the network
answers, what the side does is what `ConnEvents` does with that answer. So
every result about the runs of `ConnEvents` is one about both sides of
every link (`run_events`); `side_protocol` is the one about the callbacks.

# The answers

`Peer` runs the functions of `TcpConnection` with the accounts beside
them, and replaces the answer to a `write` or a `readv` when it makes the
call. The lemmas say which answers those were: `f_conn` turns a successful
`Peer.f` into a successful `TcpConnection.f`. An event passes one list of
user calls to both of its closes; since a connection can be closed only
once, at most one of the two uses it.
-/
import Cobra.Proofs.ConnEvents
import Cobra.Proofs.Link

namespace Cobra

open Machine

namespace Peer

open TcpConnection

variable {p p' : Peer}

-- ========================================================== the functions

theorem sendInLoop_conn {data : List UInt8} {w : WriteResult}
    (h : p.sendInLoop data w = .ok p') :
    p.conn.sendInLoop data (p.writeAnswer w) = .ok p'.conn
      ∧ p'.events.polled = p.events.polled := by
  obtain ⟨c, hc, h⟩ := bind_ok_inv h
  cases h
  exact ⟨hc, rfl⟩

theorem handleWrite_conn {w : WriteResult} (h : p.handleWrite w = .ok p') :
    p.conn.handleWrite (p.writeAnswer w) = .ok p'.conn
      ∧ p'.events.polled = p.events.polled := by
  obtain ⟨c, hc, h⟩ := bind_ok_inv h
  cases h
  exact ⟨hc, rfl⟩

theorem userOp_conn {op : UserOp} (h : p.userOp op = .ok p') :
    ∃ op', p.conn.userOp op' = .ok p'.conn
      ∧ p'.events.polled = p.events.polled := by
  cases op with
  | send data w =>
      simp only [userOp] at h
      refine ⟨.send data (p.writeAnswer w), ?_⟩
      simp only [TcpConnection.userOp, send]
      split at h
      next hup =>
        rw [if_pos hup]
        exact sendInLoop_conn h
      next hdown =>
        rw [if_neg hdown]
        cases h
        exact ⟨rfl, rfl⟩
  | shutdown =>
      cases h
      exact ⟨.shutdown, rfl, rfl⟩
  | retrieve len =>
      obtain ⟨c, hc, h⟩ := bind_ok_inv h
      cases h
      exact ⟨.retrieve len, hc, rfl⟩

theorem userOps_conn : ∀ (ops : List UserOp) {p p' : Peer},
    run userOp p ops = .ok p' →
    ∃ ops', run TcpConnection.userOp p.conn ops' = .ok p'.conn := by
  intro ops
  induction ops with
  | nil =>
      intro p p' h
      cases h
      exact ⟨[], rfl⟩
  | cons op ops ih =>
      intro p p' h
      obtain ⟨p₁, hop, hrest⟩ := run_cons_inv h
      obtain ⟨op', hop', -⟩ := userOp_conn hop
      obtain ⟨ops', hops'⟩ := ih hrest
      refine ⟨op' :: ops', ?_⟩
      rw [run_cons_ok _ hop']
      exact hops'

theorem handleClose_conn {ops : List UserOp} (h : p.handleClose ops = .ok p') :
    ∃ ops', p.conn.handleClose ops' = .ok p'.conn := by
  unfold handleClose at h
  obtain ⟨_, hup, h⟩ := bind_ok_inv h
  obtain ⟨p₁, hcall, h⟩ := bind_ok_inv h
  cases h
  obtain ⟨ops', hops'⟩ := userOps_conn _ hcall
  refine ⟨ops', ?_⟩
  have hcall' : (p.conn.log .handleClose).disconnect.callConnectionCb ops'
      = .ok p₁.conn := hops'
  have hup' : (p.conn.log .handleClose).state = .kConnected
      ∨ (p.conn.log .handleClose).state = .kDisconnecting := require_inv hup
  unfold TcpConnection.handleClose
  simp only
  rw [require_bind hup', hcall']
  rfl

/-- A close leaves the connection down. -/
theorem handleClose_down {c c' : TcpConnection} {ops : List UserOp}
    (h : c.handleClose ops = .ok c') : ¬ Up c' := by
  unfold TcpConnection.handleClose at h
  obtain ⟨-, -, h⟩ := bind_ok_inv h
  obtain ⟨c₁, hcall, h⟩ := bind_ok_inv h
  cases h
  have hquiet := (userOps_quiet ops _).of_ok hcall
  have hdown := hquiet.down ⟨rfl, Channel.isNoneEvent_disableAll _⟩
  exact fun hup => hup.ne_disconnected hdown.1

/-- A close needs a connection that is up. -/
theorem up_of_handleClose {c c' : TcpConnection} {ops : List UserOp}
    (h : c.handleClose ops = .ok c') : Up c := by
  by_contra hdown
  have hreq : ¬ ((c.log .handleClose).state = .kConnected
      ∨ (c.log .handleClose).state = .kDisconnecting) := hdown
  unfold TcpConnection.handleClose at h
  rw [require_fail hreq] at h
  cases h

/-- A read uses one of the two lists of user calls, and the second one
only on a connection that is up. -/
theorem handleRead_conn {i : EventInput} (h : p.handleRead i = .ok p') :
    (∃ ops, ∀ w ops', p.conn.handleRead ⟨i.read, w, ops, ops'⟩ = .ok p'.conn)
      ∨ Up p.conn ∧ ∃ ops', ∀ w ops,
        p.conn.handleRead ⟨i.read, w, ops, ops'⟩ = .ok p'.conn := by
  unfold handleRead at h
  unfold TcpConnection.handleRead
  cases hr : i.read with
  | failed e =>
      rw [hr] at h
      cases h
      exact .inl ⟨[], fun _ _ => rfl⟩
  | read stream =>
      simp only [hr] at h
      obtain ⟨buf, hbuf, h⟩ := bind_ok_inv h
      simp only [hbuf, ok_bind]
      split at h
      next hsome =>
        obtain ⟨ops', hops'⟩ := userOps_conn _ h
        refine .inl ⟨ops', fun _ _ => ?_⟩
        rw [if_pos hsome]
        exact hops'
      next hnone =>
        obtain ⟨ops', hops'⟩ := handleClose_conn h
        have hup : Up (p.takeIn _ buf).conn := up_of_handleClose hops'
        refine .inr ⟨hup.congr rfl, ops', fun _ _ => ?_⟩
        rw [if_neg hnone]
        exact hops'

theorem guarded_conn {b : Bool} {f : Peer → Except ConnAssert Peer}
    {g : TcpConnection → Except ConnAssert TcpConnection}
    (hfg : f p = .ok p' → g p.conn = .ok p'.conn)
    (h : guarded b f p = .ok p') : guarded b g p.conn = .ok p'.conn := by
  cases b with
  | false =>
      cases h
      rfl
  | true => exact hfg h

theorem handleEventWithGuard_conn {i : EventInput}
    (h : p.handleEventWithGuard i = .ok p') :
    ∃ i', i'.read = i.read
      ∧ p.conn.handleEventWithGuard i' = .ok p'.conn := by
  unfold handleEventWithGuard at h
  obtain ⟨p₁, hclose, h⟩ := bind_ok_inv h
  obtain ⟨p₂, hread, hwrite⟩ := bind_ok_inv h
  -- the input that the three guarded calls agree on
  obtain ⟨ops, ops', hclose', hread'⟩ : ∃ ops ops',
      guarded (hasAny p.conn.channel.revents POLLHUP
          && !hasAny p.conn.channel.revents POLLIN)
        (fun c => c.handleClose ops') p.conn = .ok p₁.conn
      ∧ guarded (hasAny p.conn.channel.revents (POLLIN ||| POLLPRI ||| POLLRDHUP))
        (fun c => c.handleRead ⟨i.read, p₂.writeAnswer i.write, ops, ops'⟩)
        p₁.conn = .ok p₂.conn := by
    cases hb : (hasAny p.conn.channel.revents POLLHUP
        && !hasAny p.conn.channel.revents POLLIN) with
    | false =>
        rw [hb] at hclose
        cases hclose
        cases hr : hasAny p.conn.channel.revents
            (POLLIN ||| POLLPRI ||| POLLRDHUP) with
        | false =>
            rw [hr] at hread
            cases hread
            exact ⟨[], [], rfl, rfl⟩
        | true =>
            rw [hr] at hread
            rcases handleRead_conn hread with ⟨ops, hops⟩ | ⟨-, ops', hops⟩
            · exact ⟨ops, [], rfl, hops _ _⟩
            · exact ⟨[], ops', rfl, hops _ _⟩
    | true =>
        rw [hb] at hclose
        obtain ⟨ops', hops'⟩ := handleClose_conn hclose
        cases hr : hasAny p.conn.channel.revents
            (POLLIN ||| POLLPRI ||| POLLRDHUP) with
        | false =>
            rw [hr] at hread
            cases hread
            exact ⟨[], ops', hops', rfl⟩
        | true =>
            rw [hr] at hread
            rcases handleRead_conn hread with ⟨ops, hops⟩ | ⟨hup, -⟩
            · exact ⟨ops, ops', hops', hops _ _⟩
            · -- the connection has just been closed
              exact absurd hup (handleClose_down hops')
  refine ⟨⟨i.read, p₂.writeAnswer i.write, ops, ops'⟩, rfl, ?_⟩
  rw [handleEventWithGuard_eq, hclose', ok_bind, hread', ok_bind]
  exact guarded_conn (fun h => (handleWrite_conn h).1) hwrite

theorem outputStep_conn {a : OutputAct} (h : p.outputStep a = .ok p') :
    ∃ a', p.conn.outputStep a' = .ok p'.conn
      ∧ p'.events.polled = p.events.polled := by
  cases a with
  | sendInLoop data w => exact ⟨.sendInLoop data _, sendInLoop_conn h⟩
  | handleWrite w => exact ⟨.handleWrite _, handleWrite_conn h⟩
  | shutdown =>
      obtain ⟨c, hc, h⟩ := bind_ok_inv h
      cases h
      exact ⟨.shutdown, hc, rfl⟩
  | shutdownInLoop =>
      cases h
      exact ⟨.shutdownInLoop, rfl, rfl⟩

/-- A step of the side is a step of its connection; it reports an event
only where the side does. -/
theorem step_events {arrived : List UInt8} {eof : Bool} {a : EventAct}
    (h : p.step arrived eof a = .ok p') :
    ∃ a', p.events.step a' = .ok p'.events
      ∧ ∀ r, a' = .poll r → a = .poll r := by
  have hsame : ∀ {q : Peer}, q.events.polled = p.events.polled →
      (⟨q.conn, p.events.polled⟩ : ConnEvents) = q.events := by
    intro q hq
    rw [← hq]
    rfl
  cases a with
  | poll revents =>
      refine ⟨.poll revents, ?_, fun _ hr => hr⟩
      simp only [step] at h
      simp only [ConnEvents.step]
      split at h
      next hb =>
        cases h
        exact if_pos hb
      next hb =>
        cases h
        exact if_neg hb
  | handleEvent i =>
      simp only [step] at h
      split at h
      next hp =>
        obtain ⟨p₁, hev, h⟩ := bind_ok_inv h
        cases h
        obtain ⟨i', -, hi'⟩ := handleEventWithGuard_conn hev
        refine ⟨.handleEvent i', ?_, fun _ hr => by cases hr⟩
        simp only [ConnEvents.step]
        rw [if_pos hp, show p.events.conn = p.conn from rfl, hi']
        rfl
      next hp =>
        cases h
        exact ⟨.handleEvent i, if_neg hp, fun _ hr => by cases hr⟩
  | user op =>
      obtain ⟨op', hop', hq⟩ := userOp_conn h
      refine ⟨.user op', ?_, fun _ hr => by cases hr⟩
      simp only [ConnEvents.step]
      rw [show p.events.conn = p.conn from rfl, hop', ← hsame hq]
      rfl
  | output a =>
      obtain ⟨a', ha', hq⟩ := outputStep_conn h
      refine ⟨.output a', ?_, fun _ hr => by cases hr⟩
      simp only [ConnEvents.step]
      rw [show p.events.conn = p.conn from rfl, ha', ← hsame hq]
      rfl

end Peer

-- ============================================================= the link

namespace Link

theorem create_events (fd : Side → Nat)
    (writeCompleteCb highWaterMarkCb : Side → Bool) (s : Side) :
    ((create fd writeCompleteCb highWaterMarkCb).peer s).events
      = .create (fd s) (writeCompleteCb s) (highWaterMarkCb s) := by
  cases s <;> rfl

/-- On each side, a run of the link is a run of one connection on its
loop, with the side's reports. -/
theorem run_events {s : Side} : ∀ (acts : List (Side × EventAct)) {l l' : Link},
    run step l acts = .ok l' →
    ∃ evs, run ConnEvents.step (l.peer s).events evs
        = .ok (l'.peer s).events
      ∧ ∀ r, .poll r ∈ evs → (s, .poll r) ∈ acts := by
  intro acts
  induction acts with
  | nil =>
      intro l l' h
      cases h
      exact ⟨[], rfl, nofun⟩
  | cons a acts ih =>
      intro l l' h
      obtain ⟨l₁, hstep, hrest⟩ := run_cons_inv h
      obtain ⟨evs, hevs, hpolls⟩ := ih hrest
      obtain ⟨t, a⟩ := a
      obtain ⟨p, hp, heq⟩ := bind_ok_inv hstep
      cases heq
      rcases eq_or_eq_other t s with rfl | rfl
      · rw [peer_setPeer] at hevs
        obtain ⟨a', ha', hpoll⟩ := Peer.step_events hp
        refine ⟨a' :: evs, by rw [run_cons_ok _ ha']; exact hevs, fun r hr => ?_⟩
        rcases List.mem_cons.1 hr with hr | hr
        · have ha : a = .poll r := hpoll r hr.symm
          rw [ha]
          exact List.mem_cons_self
        · exact List.mem_cons_of_mem _ (hpolls r hr)
      · rw [peer_setPeer_other] at hevs
        exact ⟨evs, hevs, fun r hr => List.mem_cons_of_mem _ (hpolls r hr)⟩

end Link

namespace ConnEvents

open TcpConnection

variable {s s' : ConnEvents}

/-- The reported events stay until the next report. -/
theorem step_revents {a : EventAct} (ha : ∀ r, a ≠ .poll r)
    (hok : s.step a = .ok s') :
    s'.conn.channel.revents = s.conn.channel.revents := by
  have hgrow : ∀ {c : TcpConnection}, Evolves s.conn c →
      c.channel.revents = s.conn.channel.revents := by
    rintro c ⟨new, hlog, -⟩
    exact hlog.revents
  cases a with
  | poll r => exact absurd rfl (ha r)
  | handleEvent i =>
      simp only [step] at hok
      split at hok
      · obtain ⟨c, hc, hok⟩ := bind_ok_inv hok
        cases hok
        exact hgrow (handleEventWithGuard_evolves hc)
      · cases hok
        rfl
  | user op =>
      obtain ⟨c, hc, hok⟩ := bind_ok_inv hok
      cases hok
      exact hgrow ((userOp_quiet s.conn op).of_ok hc).evolves
  | output a =>
      obtain ⟨c, hc, hok⟩ := bind_ok_inv hok
      cases hok
      exact hgrow ((outputStep_quiet s.conn a).of_ok hc).evolves

/-- A report that does not close and read leaves the life of the connection
as the protocol has it, whatever the reports before. -/
theorem step_safe_reports {a : EventAct}
    (h : InLife s ∧ closesAndReads s.conn.channel.revents = false)
    (ha : ∀ r, a = .poll r → closesAndReads r = false)
    (hok : s.step a = .ok s') :
    InLife s' ∧ closesAndReads s'.conn.channel.revents = false := by
  constructor
  · refine (step_inLife h.1 fun hbad => ?_).of_ok hok
    obtain ⟨-, -, -, -, hmask, -⟩ := hbad
    rw [h.2] at hmask
    cases hmask
  · by_cases hpoll : ∃ r, a = .poll r
    · obtain ⟨r, rfl⟩ := hpoll
      simp only [step] at hok
      split at hok
      · cases hok
        exact ha r rfl
      · cases hok
        exact h.2
    · rw [step_revents (fun r hr => hpoll ⟨r, hr⟩) hok]
      exact h.2

end ConnEvents

namespace Link

open TcpConnection

/-- Whatever the network and the peer do, each side is a connection on its
loop, to which nothing is reported but what is reported to the side; and if
no report closes the connection and reads from it, its callbacks keep the
protocol. -/
theorem side_protocol (fd : Side → Nat)
    (writeCompleteCb highWaterMarkCb : Side → Bool)
    (acts : List (Side × EventAct)) {l : Link}
    (h : run step (create fd writeCompleteCb highWaterMarkCb) acts = .ok l)
    (s : Side) :
    (∃ evs, run ConnEvents.step
        (.create (fd s) (writeCompleteCb s) (highWaterMarkCb s)) evs
        = .ok (l.peer s).events
        ∧ ∀ r, .poll r ∈ evs → (s, .poll r) ∈ acts)
      ∧ ((∀ r, (s, .poll r) ∈ acts → closesAndReads r = false) →
        Protocol (l.peer s).conn.obs) := by
  obtain ⟨evs, hrun, hpolls⟩ := run_events (s := s) acts h
  rw [create_events] at hrun
  refine ⟨⟨evs, hrun, hpolls⟩, fun hreports => ?_⟩
  have hfresh : closesAndReads 0#32 = false := by decide
  have hlife := run_inv
    (I := fun e => ConnEvents.InLife e
      ∧ closesAndReads e.conn.channel.revents = false)
    (C := fun _ a => ∀ r, a = .poll r → closesAndReads r = false)
    (fun _ _ _ hi ha hok => ConnEvents.step_safe_reports hi ha hok)
    ⟨ConnEvents.inLife_create .., hfresh⟩
    (along_of_mem evs _ fun a ha _ r hr =>
      hreports r (hpolls r (by rw [← hr]; exact ha))) hrun
  exact hlife.1.protocol

theorem side_protocol_shutdown :
    ∃ l, run step pair (shutdownPending ++ shutdownDone) = .ok l
      ∧ .closeCb ∈ (l.peer .server).conn.obs
      ∧ Protocol (l.peer .server).conn.obs := by
  obtain ⟨l, hl, hclosed⟩ :
      Holds (run step pair (shutdownPending ++ shutdownDone)) fun l =>
        .closeCb ∈ (l.peer .server).conn.obs := by
    decide +kernel
  refine ⟨l, hl, hclosed, (side_protocol _ _ _ _ hl .server).2 fun r hr => ?_⟩
  simp only [shutdownPending, shutdownDone, List.mem_append, List.mem_cons,
    List.not_mem_nil, Prod.mk.injEq, EventAct.poll.injEq, reduceCtorEq,
    and_false, false_and, or_false, false_or, true_and] at hr
  rcases hr with rfl | rfl | rfl
  · decide
  · decide
  · decide

end Link

end Cobra
