/-
The sockets of a connector, over every interleaving of its loop, its
timers and the threads that call `start` and `stop`.

`channel_` goes through three phases: there is none, it watches a socket
while `state_` is `kConnecting`, or it is detached with one
`resetChannel` due. The assertion of `connecting` is what keeps a second
`resetChannel` from being due, and so keeps the functor from resetting a
channel that watches. On this rests the account of the sockets
(`sockets_conserved`): each is watched, closed or handed over, whichever
of the ways an attempt can end was taken.
-/
import Cobra.Proofs.Connector

namespace Cobra.Connector

open Machine

variable {U : Type} {s s' : Connector U}

-- ==================================================== the account

/-- Every socket is watched, closed or handed over: one of the three, and
once. -/
def Fates (sockets : List ConnectorSocket) (watched : Option Nat) : Prop :=
  ∀ i k, sockets[i]? = some k →
    k.closes + k.handed + (if watched = some i then 1 else 0) = 1

theorem fates_open {l : List ConnectorSocket} (h : Fates l none) :
    Fates (l ++ [⟨0, 0⟩]) (some l.length) := by
  intro i k hk
  by_cases hi : i = l.length
  · subst hi
    rw [List.getElem?_concat_length] at hk
    cases hk
    simp
  · rw [if_neg (fun heq => hi (Option.some.inj heq).symm)]
    have hlt : i < l.length := by
      have := (List.getElem?_eq_some_iff.1 hk).1
      rw [List.length_append, List.length_singleton] at this
      omega
    rw [List.getElem?_append_left hlt] at hk
    simpa using h i k hk

/-- The socket that was watched is closed, or handed over. -/
theorem fates_settle {l : List ConnectorSocket} {i : Nat}
    {f : ConnectorSocket → ConnectorSocket}
    (hf : ∀ k, (f k).closes + (f k).handed = k.closes + k.handed + 1)
    (h : Fates l (some i)) : Fates (l.modify i f) none := by
  intro j k hk
  rw [List.getElem?_modify] at hk
  obtain ⟨k₀, hk₀, rfl⟩ := Option.map_eq_some_iff.1 hk
  have h₀ := h j k₀ hk₀
  by_cases hij : i = j
  · subst hij
    have := hf k₀
    simp only [if_true, reduceCtorEq, if_false] at h₀ ⊢
    omega
  · rw [if_neg (fun heq => hij (Option.some.inj heq))] at h₀
    simpa [hij] using h₀

/-- Where `channel_` is, with the number of `resetChannel` that are due. -/
inductive Phase (s : Connector U) (resets : Nat) : Prop
  | reset (hch : s.channel = none) (hst : s.state ≠ .kConnecting)
      (hr : resets = 0)
  | watching (channel : Channel) (hch : s.channel = some channel)
      (hev : channel.isNoneEvent = false) (hst : s.state = .kConnecting)
      (hr : resets = 0)
  | detached (channel : Channel) (hch : s.channel = some channel)
      (hev : channel.isNoneEvent = true) (hst : s.state ≠ .kConnecting)
      (hr : resets = 1)

theorem watched_none (h : s.channel = none) : s.watched = none := by
  unfold watched
  rw [h]

theorem watched_some {channel : Channel} (h : s.channel = some channel)
    (hev : channel.isNoneEvent = false) : s.watched = some channel.fd := by
  unfold watched
  simp [h, hev]

theorem watched_detached {channel : Channel} (h : s.channel = some channel)
    (hev : channel.isNoneEvent = true) : s.watched = none := by
  unfold watched
  simp [h, hev]

/-- No socket is watched but by an attempt under way. -/
theorem Phase.watched_none {n : Nat} (h : Phase s n)
    (hst : s.state ≠ .kConnecting) : s.watched = none := by
  cases h with
  | reset hch => exact Connector.watched_none hch
  | watching _ _ _ hst' => exact absurd hst' hst
  | detached channel hch hev => exact watched_detached hch hev

/-- An attempt under way watches a socket, with no `resetChannel` due. -/
theorem Phase.watching_inv {n : Nat} (h : Phase s n)
    (hst : s.state = .kConnecting) :
    ∃ channel, s.channel = some channel ∧ channel.isNoneEvent = false
      ∧ n = 0 := by
  cases h with
  | reset _ hst' => exact absurd hst hst'
  | watching channel hch hev _ hr => exact ⟨channel, hch, hev, hr⟩
  | detached _ _ _ hst' => exact absurd hst hst'

/-- The phase looks at `state_` and `channel_` only. -/
theorem Phase.congr {n : Nat} (h : Phase s n) (hst : s'.state = s.state)
    (hch : s'.channel = s.channel) : Phase s' n := by
  cases h with
  | reset h₁ h₂ h₃ => exact .reset (hch.trans h₁) (hst ▸ h₂) h₃
  | watching c h₁ h₂ h₃ h₄ =>
      exact .watching c (hch.trans h₁) h₂ (hst.trans h₃) h₄
  | detached c h₁ h₂ h₃ h₄ =>
      exact .detached c (hch.trans h₁) h₂ (hst ▸ h₃) h₄

/-- Between two states that are not `kConnecting` the phase stays. -/
theorem Phase.rest {n : Nat} (h : Phase s n) (hst : s.state ≠ .kConnecting)
    (hst' : s'.state ≠ .kConnecting) (hch : s'.channel = s.channel) :
    Phase s' n := by
  cases h with
  | reset h₁ _ h₃ => exact .reset (hch.trans h₁) hst' h₃
  | watching _ _ _ h₃ => exact absurd h₃ hst
  | detached c h₁ h₂ _ h₄ => exact .detached c (hch.trans h₁) h₂ hst' h₄

theorem isNoneEvent_writing (fd : Nat) :
    (Channel.create fd).enableWriting.isNoneEvent = false := by
  show (0#32 ||| kWriteEvent == kNoneEvent) = false
  decide

/-- The new socket is closed at once. -/
theorem fates_newSocket_close (h : Fates s.sockets none) :
    Fates (s.newSocket.close s.sockets.length).sockets none :=
  fates_settle (fun _ => Nat.add_right_comm _ _ _) (fates_open h)

-- ===================================================== after a handover

/-- The last socket `connect` created was handed over. -/
def handedOver (s : Connector U) : Bool :=
  s.sockets.getLast?.any fun k => k.handed != 0

theorem handedOver_close (s : Connector U) (sockfd : Nat) :
    (s.close sockfd).handedOver = s.handedOver := by
  unfold handedOver close
  simp only [List.getLast?_eq_getElem?, List.length_modify,
    List.getElem?_modify]
  cases s.sockets[s.sockets.length - 1]? with
  | none => rfl
  | some k =>
      by_cases hi : sockfd = s.sockets.length - 1
      · simp [hi]
      · simp [hi]

theorem handedOver_newSocket (s : Connector U) :
    s.newSocket.handedOver = false := by
  unfold handedOver newSocket
  rw [List.getLast?_concat]
  rfl

theorem handedOver_retry (s : Connector U) (sockfd : Nat) :
    (s.retry sockfd).handedOver = s.handedOver := by
  rw [retry_eq]
  exact handedOver_close s sockfd

/-- A new attempt has a new socket. -/
theorem Begins.handedOver (h : Begins s s') (hc : s.connect_ = true) :
    s'.handedOver = false := by
  cases h with
  | stopped _ hc' => rw [hc] at hc'; cases hc'
  | pending => exact handedOver_newSocket s
  | retry => rw [handedOver_retry, handedOver_newSocket]
  | failed => rw [handedOver_close, handedOver_newSocket]

theorem Begins.state_ne (h : Begins s s') : s'.state ≠ .kConnected := by
  cases h with
  | stopped hst => rw [hst]; decide
  | pending => show ConnectorStates.kConnecting ≠ _; decide
  | retry => rw [retry_state]; decide
  | failed hst =>
      show s.state ≠ _
      rw [hst]
      decide

/-- `startInLoop` leaves no handover behind: it runs only when there is
none, or makes a new socket. -/
theorem last_begins (hb : Begins s s')
    (hlast : s.connect_ = false → s.handedOver = true → s.state = .kConnected) :
    s'.handedOver = true → s'.state = .kConnected := by
  intro hh
  cases hc : s.connect_ with
  | true =>
      rw [hb.handedOver hc] at hh
      cases hh
  | false =>
      cases hb with
      | stopped hst => exact hlast hc hh
      | pending _ hc' => rw [hc] at hc'; cases hc'
      | retry _ hc' => rw [hc] at hc'; cases hc'
      | failed _ hc' => rw [hc] at hc'; cases hc'

theorem last_retry {channel : Channel}
    (hlast : s.handedOver = true → s.state = .kConnected)
    (hst : s.state = .kConnecting) :
    (s.detached channel |>.retry channel.fd).handedOver = false := by
  rw [handedOver_retry]
  refine Bool.eq_false_of_not_eq_true fun hh => ?_
  have := hlast hh
  rw [hst] at this
  cases this

theorem last_ends {o : Option Nat} (he : Ends s s' o)
    (hlast : s.handedOver = true → s.state = .kConnected) :
    s'.handedOver = true → s'.state = .kConnected := by
  intro hh
  cases he with
  | retry channel hst =>
      rw [last_retry hlast hst] at hh
      cases hh
  | handed => rfl
  | late => rfl

/-- `restart` comes only after a connection was handed over. -/
def RestartsAfterHandover (s : Connector U) : ConnectorAct U → Prop
  | .restart _ => s.loop.canCall s.loop.threadId = true → s.handedOver = true
  | _ => True

-- ================================================ where a run can stop

theorem startInLoop_error {errno : ConnectErrno} {e : ConnectorAssert}
    (h : s.startInLoop errno = .error e) :
    e = .startInLoop ∨ e = .connecting := by
  rcases bind_error_inv h with hreq | ⟨u, -, hrest⟩
  · exact .inl (require_error_inv hreq)
  · split at hrest
    · cases errno with
      | success | EINPROGRESS | EINTR | EISCONN =>
          rcases bind_error_inv hrest with hreq | ⟨u, -, hrest⟩
          · exact .inr (require_error_inv hreq)
          · cases hrest
      | _ => cases hrest
    · cases hrest

/-- An attempt under way can be ended. -/
theorem handleEventWithGuard_ok {channel : Channel} (revents : BitVec 32)
    (soError : Nat) (selfConnect : Bool) (hst : s.state = .kConnecting)
    (hch : s.channel = some channel) :
    ∃ p, s.handleEventWithGuard revents soError selfConnect = .ok p := by
  have herr : ∃ s₁, guarded (hasAny revents (POLLERR ||| POLLNVAL)) handleError s
      = .ok s₁ ∧ (s₁ = s ∨ s₁.state = .kDisconnected) := by
    cases hb : hasAny revents (POLLERR ||| POLLNVAL) with
    | true =>
        refine ⟨_, ?_, .inr (retry_state (s.detached channel) channel.fd)⟩
        unfold guarded handleError
        rw [if_pos rfl, if_pos hst, removeAndResetChannel_some hch]
        rfl
    | false => exact ⟨s, rfl, .inl rfl⟩
  obtain ⟨s₁, hs₁, hcase⟩ := herr
  have hw : ∃ p, s₁.handleWrite soError selfConnect = .ok p := by
    unfold handleWrite
    rcases hcase with rfl | hst₁
    · rw [if_pos hst, removeAndResetChannel_some hch]
      by_cases hso : soError ≠ 0
      · exact ⟨_, if_pos hso⟩
      · by_cases hself : selfConnect = true
        · exact ⟨_, (if_neg hso).trans (if_pos hself)⟩
        · by_cases hc : s₁.connect_ = true
          · exact ⟨_, (if_neg hso).trans ((if_neg hself).trans (if_pos hc))⟩
          · exact ⟨_, (if_neg hso).trans ((if_neg hself).trans (if_neg hc))⟩
    · rw [if_neg (by simp [hst₁]), require_bind hst₁]
      exact ⟨_, rfl⟩
  obtain ⟨p, hp⟩ := hw
  unfold handleEventWithGuard
  rw [hs₁]
  by_cases hout : hasAny revents POLLOUT = true
  · exact ⟨p, (if_pos hout).trans hp⟩
  · exact ⟨_, if_neg hout⟩

/-- The step runs `startInLoop`, on the connector as it is then. -/
inductive RunsStart (s : Connector U) : ConnectorAct U → Connector U → Prop
  | start (t : Nat) (errno : ConnectErrno) (hc : s.loop.canCall t = true)
      (ht : s.loop.isInLoopThread t = true) :
      RunsStart s (.start t errno) s.started
  | restart (errno : ConnectErrno)
      (hc : s.loop.canCall s.loop.threadId = true) :
      RunsStart s (.restart errno) s.restarted
  | timer (k : Nat) (errno : ConnectErrno)
      (hpc : s.loop.canLoop .handling = true) (hk : k < s.timers.length) :
      RunsStart s (.timer k errno) { s with timers := s.timers.eraseIdx k }
  | call {rest : List (ConnectorFunctor U)} (errno : ConnectErrno)
      (hf : s.loop.queue.functors = .startInLoop :: rest) :
      RunsStart s (.call errno) s.called

-- ======================================================= the invariant

section Account

variable [DecidableEq U] {q : List (ConnectorFunctor U)}

/-- The account, with the functors that are due. -/
structure SockCore (s : Connector U) (q : List (ConnectorFunctor U)) : Prop where
  phase : Phase s (q.count .resetChannel)
  fates : Fates s.sockets s.watched

theorem SockCore.congr (h : SockCore s q) (hst : s'.state = s.state)
    (hch : s'.channel = s.channel) (hk : s'.sockets = s.sockets) :
    SockCore s' q := by
  refine ⟨h.phase.congr hst hch, ?_⟩
  have hw : s'.watched = s.watched := by
    unfold watched
    rw [hch]
  rw [hk, hw]
  exact h.fates

/-- More is due, but no `resetChannel`. -/
theorem SockCore.queue (h : SockCore s q) {q' : List (ConnectorFunctor U)}
    (hq : q'.count .resetChannel = q.count .resetChannel) : SockCore s q' :=
  ⟨hq ▸ h.phase, h.fates⟩

theorem SockCore.push {f : ConnectorFunctor U} (h : SockCore s q)
    (hf : f ≠ .resetChannel) : SockCore s (q ++ [f]) :=
  h.queue (by rw [List.count_append, List.count_singleton,
    if_neg (by simpa using hf), Nat.add_zero])

theorem SockCore.pop {f : ConnectorFunctor U} (h : SockCore s (f :: q))
    (hf : f ≠ .resetChannel) : SockCore s q :=
  h.queue (List.count_cons_of_ne hf).symm

theorem sockCore_begins (h : SockCore s q) (hb : Begins s s') :
    SockCore s' q := by
  have hfates : s.state = .kDisconnected → Fates s.sockets none := by
    intro hst
    have hw := h.phase.watched_none (by simp [hst])
    exact hw ▸ h.fates
  cases hb with
  | stopped => exact h
  | pending hst hc hch =>
      refine ⟨.watching _ rfl (isNoneEvent_writing _) rfl ?_, ?_⟩
      · cases h.phase with
        | reset _ _ hr => exact hr
        | watching _ hch' => rw [hch] at hch'; cases hch'
        | detached _ hch' => rw [hch] at hch'; cases hch'
      · have hw : s.pending.watched = some s.sockets.length :=
          watched_some (s := s.pending) rfl (isNoneEvent_writing _)
        rw [hw]
        exact fates_open (hfates hst)
  | retry hst hc =>
      have hne : s.state ≠ .kConnecting := by simp [hst]
      have hph : Phase (s.newSocket.retry s.sockets.length) (q.count .resetChannel) :=
        h.phase.rest hne (by simp) (by rw [retry_eq]; rfl)
      refine ⟨hph, ?_⟩
      rw [hph.watched_none (by simp), retry_eq]
      exact fates_newSocket_close (hfates hst)
  | failed hst hc =>
      have hne : s.state ≠ .kConnecting := by simp [hst]
      have hph : Phase (s.newSocket.close s.sockets.length) (q.count .resetChannel) :=
        h.phase.rest hne hne rfl
      refine ⟨hph, ?_⟩
      rw [hph.watched_none hne]
      exact fates_newSocket_close (hfates hst)

/-- Whatever ends the attempt detaches the channel and settles its
socket. -/
theorem sockCore_settle (h : SockCore s q) {channel : Channel}
    (hst : s.state = .kConnecting) (hch : s.channel = some channel)
    {f : ConnectorSocket → ConnectorSocket}
    (hf : ∀ k, (f k).closes + (f k).handed = k.closes + k.handed + 1)
    (hch' : s'.channel = some channel.disableAll)
    (hst' : s'.state ≠ .kConnecting)
    (hk' : s'.sockets = s.sockets.modify channel.fd f) :
    SockCore s' (q ++ [.resetChannel]) := by
  obtain ⟨channel', hch'', hev, hr⟩ := h.phase.watching_inv hst
  obtain rfl : channel' = channel := Option.some.inj (hch''.symm.trans hch)
  have hph : Phase s' (List.count .resetChannel (q ++ [.resetChannel])) := by
    refine .detached _ hch' (Channel.isNoneEvent_disableAll _) hst' ?_
    rw [List.count_append, hr]
    simp
  refine ⟨hph, ?_⟩
  rw [hph.watched_none hst', hk']
  exact fates_settle hf (watched_some hch hev ▸ h.fates)

theorem sockCore_retry (h : SockCore s q) {channel : Channel}
    (hst : s.state = .kConnecting) (hch : s.channel = some channel) :
    SockCore ((s.detached channel).retry channel.fd)
      (q ++ [.resetChannel]) := by
  refine sockCore_settle (f := fun k => { k with closes := k.closes + 1 }) h hst
    hch (fun _ => Nat.add_right_comm _ _ _) ?_ (by simp) ?_
  · rw [retry_eq]
    rfl
  · rw [retry_eq]
    rfl

theorem sockCore_ends {o : Option Nat} (h : SockCore s q) (he : Ends s s' o) :
    SockCore s' (q ++ [.resetChannel]) := by
  cases he with
  | retry channel hst hch => exact sockCore_retry h hst hch
  | handed channel hst hch hc =>
      exact sockCore_settle (f := fun k => { k with handed := k.handed + 1 }) h
        hst hch (fun _ => (Nat.add_assoc _ _ _).symm) rfl
        nofun rfl
  | late channel hst hch hc =>
      exact sockCore_settle (f := fun k => { k with closes := k.closes + 1 }) h
        hst hch (fun _ => Nat.add_right_comm _ _ _) rfl
        nofun rfl

theorem sockCore_reset (h : SockCore s (.resetChannel :: q)) :
    SockCore s.resetChannel q := by
  have hph : Phase s.resetChannel (q.count .resetChannel) ∧ s.watched = none := by
    have hcount : (ConnectorFunctor.resetChannel :: q).count .resetChannel
        = q.count .resetChannel + 1 := List.count_cons_self
    cases h.phase with
    | reset _ _ hr => omega
    | watching _ _ _ _ hr => omega
    | detached channel hch hev hst hr =>
        exact ⟨.reset rfl hst (by omega), watched_detached hch hev⟩
  refine ⟨hph.1, ?_⟩
  rw [watched_none (s := s.resetChannel) rfl]
  exact hph.2 ▸ h.fates

/-- The invariant of the runs in which `restart` comes after a
handover. -/
structure SockInv (s : Connector U) : Prop where
  queue : s.loop.QueueInv
  core : SockCore s s.due
  last : s.handedOver = true → s.state = .kConnected

theorem sockInv_create (threadId : Nat) :
    SockInv (create threadId : Connector U) where
  queue := Worker.queueInv_create threadId
  core := ⟨.reset rfl (fun h => by cases h) rfl, fun i k hk => by cases hk⟩
  last := fun h => by cases h

theorem sockInv_moves {a : ConnectorAct U} (h : SockInv s)
    (hC : RestartsAfterHandover s a) (hm : Moves s a s') : SockInv s' := by
  have hqueue := queueInv_moves h.queue hm
  cases hm with
  | stay => exact h
  | start t errno hc ht hb =>
      refine ⟨hqueue, ?_, last_begins hb (fun hc' => by cases hc')⟩
      rw [hb.due]
      exact sockCore_begins (s := s.started) (h.core.congr rfl rfl rfl) hb
  | startOther t errno hc ht =>
      refine ⟨hqueue, ?_, h.last⟩
      rw [due_startOther]
      exact (h.core.push (by simp)).congr rfl rfl rfl
  | stop t =>
      refine ⟨hqueue, ?_, h.last⟩
      rw [due_stop]
      exact (h.core.push (by simp)).congr rfl rfl rfl
  | restart errno hc hb =>
      refine ⟨hqueue, ?_, last_begins hb (fun hc' => by cases hc')⟩
      have hst := h.last (hC hc)
      rw [hb.due]
      refine sockCore_begins (s := s.restarted) ⟨?_, h.core.fates⟩ hb
      exact h.core.phase.rest (by simp [hst])
        nofun rfl
  | event revents soError selfConnect hpc he hok =>
      refine ⟨hqueue, ?_, last_ends he h.last⟩
      rw [he.due]
      exact sockCore_ends h.core he
  | timer k errno hpc hk hb =>
      refine ⟨hqueue, ?_, last_begins hb (fun _ => h.last)⟩
      rw [hb.due]
      exact sockCore_begins (s := { s with timers := s.timers.eraseIdx k })
        (h.core.congr rfl rfl rfl) hb
  | callStart errno hpc hf hb =>
      refine ⟨hqueue, ?_, last_begins hb (fun _ => h.last)⟩
      have hcore := due_called hf ▸ h.core
      rw [hb.due]
      exact sockCore_begins (s := s.called)
        ((hcore.pop (by simp)).congr rfl rfl rfl) hb
  | callStop errno hpc hf hst =>
      have hcore := due_called hf ▸ h.core
      exact ⟨hqueue, (hcore.pop (by simp)).congr rfl rfl rfl, h.last⟩
  | callStopEnds errno channel hpc hf hst hch =>
      have hcore := due_called hf ▸ h.core
      refine ⟨hqueue, ?_, fun hh => ?_⟩
      · rw [due_retry, due_detached]
        exact sockCore_retry (s := { s.called with stopsRun := s.stopsRun + 1 })
          ((hcore.pop (by simp)).congr rfl rfl rfl) hst hch
      · rw [last_retry (s := { s.called with stopsRun := s.stopsRun + 1 })
          h.last hst] at hh
        cases hh
  | callReset errno hpc hf =>
      have hcore := due_called hf ▸ h.core
      exact ⟨hqueue, sockCore_reset (s := s.called) (hcore.congr rfl rfl rfl),
        h.last⟩
  | callOther errno f hpc hf =>
      have hcore := due_called hf ▸ h.core
      exact ⟨hqueue, (hcore.pop (by simp)).congr rfl rfl rfl, h.last⟩
  | loop a ha hw =>
      have hcore := due_loop (P := SockCore s) h.queue ha hw
        (fun _ _ hc => hc.push (by simp)) h.core
      exact ⟨hqueue, hcore.congr rfl rfl rfl, h.last⟩

/-- Only the loop and `startInLoop` can fail. -/
theorem step_error {a : ConnectorAct U} {e : ConnectorAssert} (h : SockInv s)
    (herr : s.step a = .error e) :
    (∃ w, e = .worker w)
      ∨ ∃ s₀ errno, RunsStart s a s₀ ∧ s₀.startInLoop errno = .error e := by
  cases a with
  | start t errno =>
      simp only [step] at herr
      split at herr
      next hc =>
        unfold Connector.start at herr
        simp only at herr
        split at herr
        next ht => exact .inr ⟨_, errno, .start t errno hc ht, herr⟩
        next => cases herr
      next => cases herr
  | stop t =>
      simp only [step] at herr
      split at herr
      · cases herr
      · cases herr
  | restart errno =>
      simp only [step] at herr
      split at herr
      next hc => exact .inr ⟨_, errno, .restart errno hc, herr⟩
      next => cases herr
  | handleEvent revents soError selfConnect =>
      rcases bind_error_inv herr with hev | ⟨p, -, hrest⟩
      · unfold Connector.handleEvent at hev
        split at hev
        next hw =>
          rw [Bool.and_eq_true] at hw
          have hst : s.state = .kConnecting := by
            by_contra hst
            rw [h.core.phase.watched_none hst] at hw
            exact absurd hw.2 (by decide)
          obtain ⟨channel, hch, -, -⟩ := h.core.phase.watching_inv hst
          obtain ⟨p, hp⟩ := handleEventWithGuard_ok revents soError selfConnect
            hst hch
          rw [hp] at hev
          cases hev
        next => cases hev
      · cases hrest
  | timer k errno =>
      simp only [step, Connector.timer] at herr
      split at herr
      next hk =>
        rw [Bool.and_eq_true, decide_eq_true_eq] at hk
        exact .inr ⟨_, errno, .timer k errno hk.1 hk.2, herr⟩
      next => cases herr
  | call errno =>
      simp only [step] at herr
      split at herr
      next =>
        split at herr
        next => cases herr
        next f rest hf =>
          cases f with
          | startInLoop => exact .inr ⟨_, errno, .call errno hf, herr⟩
          | stopInLoop =>
              simp only [apply, stopInLoop] at herr
              split at herr
              next hst =>
                obtain ⟨channel, hch, -, -⟩ := h.core.phase.watching_inv hst
                rcases bind_error_inv herr with hrm | ⟨p, -, hrest⟩
                · rw [removeAndResetChannel_some (by exact hch)] at hrm
                  cases hrm
                · cases hrest
              next => cases herr
          | resetChannel => cases herr
          | other f => cases herr
      next => cases herr
  | loop a =>
      simp only [step, loopStep] at herr
      split at herr
      next => cases herr
      next a' ha =>
        rcases bind_error_inv herr with hw | ⟨w, -, hrest⟩
        · cases hstep : s.loop.step a' with
          | ok w =>
              rw [hstep] at hw
              cases hw
          | error w =>
              rw [hstep] at hw
              cases hw
              exact .inl ⟨w, rfl⟩
        · cases hrest

-- ======================================================== the result

/-- `channel_` watches the socket, with `state_` at `kConnecting`. -/
def Watches (s : Connector U) (sockfd : Nat) : Prop :=
  s.state = .kConnecting ∧ s.watched = some sockfd

/-- Every socket is in exactly one of three conditions: watched, closed
once, or handed over once and not closed. -/
def SocketsConserved (s : Connector U) : Prop :=
  ∀ sockfd k, s.sockets[sockfd]? = some k →
    (Watches s sockfd ∧ k.closes = 0 ∧ k.handed = 0)
    ∨ (¬ Watches s sockfd ∧ k.closes = 1 ∧ k.handed = 0)
    ∨ (¬ Watches s sockfd ∧ k.closes = 0 ∧ k.handed = 1)

theorem SockCore.conserved (h : SockCore s q) : SocketsConserved s := by
  intro sockfd k hk
  have hfate := h.fates sockfd k hk
  by_cases hw : s.watched = some sockfd
  · rw [if_pos hw] at hfate
    have hst : s.state = .kConnecting := by
      by_contra hst
      rw [h.phase.watched_none hst] at hw
      cases hw
    exact .inl ⟨⟨hst, hw⟩, by omega, by omega⟩
  · rw [if_neg hw] at hfate
    have hnw : ¬ Watches s sockfd := fun h => hw h.2
    by_cases hc : k.closes = 0
    · exact .inr (.inr ⟨hnw, hc, by omega⟩)
    · exact .inr (.inl ⟨hnw, by omega, by omega⟩)

/-- In every run that fails no assertion, with `restart` only after a
handover, the sockets are accounted for; and no run stops because
`channel_` was used while there is none. -/
theorem sockets_conserved (threadId : Nat) (acts : List (ConnectorAct U))
    (hC : Along step RestartsAfterHandover (create threadId) acts) :
    (∀ s, run step (create threadId) acts = .ok s → SocketsConserved s)
      ∧ run step (create threadId) acts ≠ .error .nullChannel := by
  have hstep : ∀ (s : Connector U) (a : ConnectorAct U) (s' : Connector U),
      SockInv s → RestartsAfterHandover s a → s.step a = .ok s' → SockInv s' :=
    fun _ _ _ h hC hok => sockInv_moves h hC (step_moves hok)
  have hinit : SockInv (create threadId : Connector U) := sockInv_create threadId
  constructor
  · intro s hrun
    exact (run_inv hstep hinit hC hrun).core.conserved
  · intro hrun
    refine run_error (Q := fun e => e ≠ .nullChannel) hstep ?_ hinit hC hrun rfl
    intro s a e h _ herr
    rcases step_error h herr with ⟨w, rfl⟩ | ⟨s₀, errno, -, hstart⟩
    · simp
    · rcases startInLoop_error hstart with rfl | rfl
      · simp
      · simp

end Account

/-- A refused attempt, one that is handed over, one after `restart` that
has an error and a write event at once. -/
def threeSockets : List (ConnectorAct Nat) :=
  [.start 0 .ECONNREFUSED, .loop .Loop, .loop .test, .loop .pollReturn,
    .timer 0 .EINPROGRESS, .handleEvent POLLOUT 0 false, .loop .endHandling,
    .loop .swap, .call .success, .loop .ret, .loop .endPending, .loop .test,
    .loop .pollReturn, .restart .EINPROGRESS,
    .handleEvent (POLLERR ||| POLLOUT) 111 false]

instance (s : Connector U) :
    (a : ConnectorAct U) → Decidable (RestartsAfterHandover s a)
  | .restart _ => inferInstanceAs (Decidable (_ → _))
  | .start _ _ => .isTrue trivial
  | .stop _ => .isTrue trivial
  | .handleEvent _ _ _ => .isTrue trivial
  | .timer _ _ => .isTrue trivial
  | .call _ => .isTrue trivial
  | .loop _ => .isTrue trivial

theorem sockets_conserved_three :
    ∃ s : Connector Nat, run step (create 0) threeSockets = .ok s
      ∧ s.sockets = [⟨1, 0⟩, ⟨0, 1⟩, ⟨1, 0⟩] ∧ SocketsConserved s := by
  obtain ⟨s, hrun, hsock⟩ := map_ok_inv
    (show (run step (create 0 : Connector Nat) threeSockets).map
        (fun s => s.sockets) = .ok [⟨1, 0⟩, ⟨0, 1⟩, ⟨1, 0⟩]
      by decide +kernel)
  exact ⟨s, hrun, hsock, (sockets_conserved 0 threeSockets
    (along_of_check (by decide +kernel))).1 s hrun⟩

end Cobra.Connector
