/-
The life of a server's connections, over every interleaving of the
acceptor's loop with any number of I/O loops.

# The account

A connection goes through its life in three functors, and each is
somewhere exactly once: waiting in the queue of the loop it belongs to,
or done and in the log. `Acct` is that account for one connection:

    established + waiting = 1
    closed    = waiting to be removed + removed
    removed   = waiting to be destroyed + destroyed

Nothing else is needed: the order of the events follows from what is
already in the log when a step is taken.

# In hand

Between the moment a functor is taken out of one place and the moment it
arrives at the next it is in hand, and the account counts it (`due`). So
a step is a chain of small moves: an accept puts `ConnectionEstablished`
in hand, `handleClose` puts `RemoveConnectionInLoop` in hand, calling it
puts `ConnectionDestroyed` in hand, and what is in hand is either called
at once or pushed.
-/
import Cobra.Proofs.Server
import Cobra.Proofs.Worker
import Cobra.ServerLoops

namespace Cobra

open Machine

/-- The connection an event is about. -/
def LifeEvent.conn : LifeEvent → Nat
  | .established c => c
  | .handler c => c
  | .closed c => c
  | .removed c => c
  | .destroyed c _ => c

namespace ServerLoops

variable {s s' : ServerLoops} {h h' : Option (Nat × ServerFunctor)}

-- ========================================================= the account

/-- How often a functor is due on a loop: waiting there, or in hand. -/
def due (s : ServerLoops) (h : Option (Nat × ServerFunctor)) (i : Nat)
    (f : ServerFunctor) : Nat :=
  (s.loops i).queue.waiting.count f + if h = some (i, f) then 1 else 0

/-- The account of one connection. -/
structure Acct (s : ServerLoops) (h : Option (Nat × ServerFunctor)) (c : Nat) :
    Prop where
  est : s.log.count (.established c)
    + s.due h (s.conns c).loop (.ConnectionEstablished c) = 1
  rem : s.log.count (.closed c)
    = s.due h 0 (.RemoveConnectionInLoop c) + s.log.count (.removed c)
  des : s.log.count (.removed c)
    = s.due h (s.conns c).loop (.ConnectionDestroyed c)
      + s.log.count (.destroyed c false)
  once : s.log.count (.closed c) ≤ 1
  opened : s.log.count (.closed c) ≤ s.log.count (.established c)
  /-- each functor is due on its own loop only -/
  estAt : ∀ i, i ≠ (s.conns c).loop →
    s.due h i (.ConnectionEstablished c) = 0
  remAt : ∀ i, i ≠ 0 → s.due h i (.RemoveConnectionInLoop c) = 0
  desAt : ∀ i, i ≠ (s.conns c).loop →
    s.due h i (.ConnectionDestroyed c) = 0
  connecting : (s.conns c).state = .kConnecting
    ↔ s.log.count (.established c) = 0
  disconnected : (s.conns c).state = .kDisconnected
    ↔ s.log.count (.closed c) = 1
  live : c ∈ s.registry.live ↔ s.log.count (.removed c) = 0
  watched : (s.conns c).watched = true → s.log.count (.established c) = 1
  active : ∀ i, c ∈ s.activeChannels i →
    (s.conns c).loop = i ∧ s.log.count (.established c) = 1

/-- A connection that does not exist yet has left no trace. -/
structure Unborn (s : ServerLoops) (h : Option (Nat × ServerFunctor)) (c : Nat) :
    Prop where
  log : ∀ e ∈ s.log, e.conn ≠ c
  due : ∀ i f, f.conn = some c → s.due h i f = 0
  active : ∀ i, c ∉ s.activeChannels i

/-- What holds between the moves, with `start` where the counter began. -/
structure Inv (start : BitVec 32) (s : ServerLoops)
    (h : Option (Nat × ServerFunctor)) : Prop where
  registry : s.registry.Inv
  counter : s.registry.reg.nextConnId = start + BitVec.ofNat 32 s.issued
  ids : ∀ id ∈ s.registry.reg.ids,
    ∃ k, k < s.issued ∧ id = start + BitVec.ofNat 32 k
  queue : ∀ i, (s.loops i).QueueInv
  thread : ∀ i, (s.loops i).threadId = i
  acct : ∀ c, c < s.numConns → s.Acct h c
  unborn : ∀ c, s.numConns ≤ c → s.Unborn h c
  calm : ∀ c, .destroyed c true ∉ s.log
  first : AtEach (fun pre o _ => ∀ c, o = .handler c ∨ o = .closed c →
    .established c ∈ pre) s.log
  after : AtEach (fun pre o _ => ∀ c b, o = .destroyed c b →
    .closed c ∈ pre) s.log
  alive : s.alive = true

variable {start : BitVec 32}

theorem inv_create (e : Endpoint) (name : List Char) (start : BitVec 32)
    (n : Nat) (cb : Bool) : Inv start (create e name start n cb) none where
  registry := RegistryRun.inv_create e name start
  counter := by
    show start = start + BitVec.ofNat 32 0
    simp
  ids := by simp [create, RegistryRun.create, Registry.create]
  queue := fun i => Worker.queueInv_create i
  thread := fun _ => rfl
  acct := fun c hc => absurd hc (Nat.not_lt_zero c)
  unborn := fun c _ =>
    { log := by simp [create]
      due := by
        intro i f _
        simp [due, create, Worker.create]
      active := fun i => List.not_mem_nil }
  calm := by simp [create]
  first := atEach_nil
  after := atEach_nil
  alive := rfl

/-- The account reads nothing of the other connections. -/
theorem Acct.frame {c : Nat} (ha : Acct s h c)
    (hlog : ∀ e : LifeEvent, (∀ b, e ≠ .handler b) → e.conn = c →
      s'.log.count e = s.log.count e)
    (hdue : ∀ i f, f.conn = some c → s'.due h' i f = s.due h i f)
    (hconn : s'.conns c = s.conns c)
    (hlive : c ∈ s'.registry.live ↔ c ∈ s.registry.live)
    (hactive : ∀ i, c ∈ s'.activeChannels i →
      (s.conns c).loop = i ∧ s.log.count (.established c) = 1) :
    Acct s' h' c where
  est := by rw [hlog _ (by simp) rfl, hdue _ _ rfl, hconn]; exact ha.est
  rem := by
    rw [hlog _ (by simp) rfl, hlog _ (by simp) rfl, hdue _ _ rfl]
    exact ha.rem
  des := by
    rw [hlog _ (by simp) rfl, hlog _ (by simp) rfl, hdue _ _ rfl, hconn]
    exact ha.des
  once := by rw [hlog _ (by simp) rfl]; exact ha.once
  opened := by
    rw [hlog _ (by simp) rfl, hlog _ (by simp) rfl]
    exact ha.opened
  estAt := fun i hi => by
    rw [hconn] at hi
    rw [hdue _ _ rfl]
    exact ha.estAt i hi
  remAt := fun i hi => by rw [hdue _ _ rfl]; exact ha.remAt i hi
  desAt := fun i hi => by
    rw [hconn] at hi
    rw [hdue _ _ rfl]
    exact ha.desAt i hi
  connecting := by rw [hlog _ (by simp) rfl, hconn]; exact ha.connecting
  disconnected := by rw [hlog _ (by simp) rfl, hconn]; exact ha.disconnected
  live := by rw [hlog _ (by simp) rfl, hlive]; exact ha.live
  watched := by rw [hlog _ (by simp) rfl, hconn]; exact ha.watched
  active := fun i hi => by
    rw [hlog _ (by simp) rfl, hconn]
    exact hactive i hi

theorem count_log_snoc (l : List LifeEvent) (e x : LifeEvent) :
    (l ++ [e]).count x = l.count x + if e = x then 1 else 0 := by
  rw [List.count_append, List.count_singleton]
  simp only [beq_iff_eq]

-- =========================================== moves that are one of a kind

/-- The loops move, and nothing else does: what was due stays due, and
what a loop takes out of `poll` is watched. -/
theorem Inv.relocate (hi : Inv start s h) {L : Nat → Worker ServerFunctor}
    {A : Nat → List Nat} {cur : Nat → Option Nat}
    (hq : ∀ i, (L i).QueueInv) (ht : ∀ i, (L i).threadId = i)
    (hdue : ∀ i f, f.conn ≠ none →
      due { s with loops := L, activeChannels := A,
                   currentActiveChannel := cur } h' i f = s.due h i f)
    (hact : ∀ i c, c ∈ A i → c ∈ s.activeChannels i
      ∨ (c < s.numConns ∧ (s.conns c).loop = i
        ∧ (s.conns c).watched = true)) :
    Inv start { s with loops := L, activeChannels := A,
                       currentActiveChannel := cur } h' where
  registry := hi.registry
  counter := hi.counter
  ids := hi.ids
  queue := hq
  thread := ht
  acct := by
    intro c hc
    have ha := hi.acct c hc
    refine ha.frame (fun _ _ _ => rfl)
      (fun i f hf => hdue i f (by rw [hf]; simp)) rfl Iff.rfl
      (fun i hci => ?_)
    rcases hact i c hci with hold | ⟨-, hloop, hwatched⟩
    · exact ha.active i hold
    · exact ⟨hloop, ha.watched hwatched⟩
  unborn := by
    intro c hc
    have hu := hi.unborn c hc
    refine ⟨hu.log, fun i f hf => ?_, fun i hci => ?_⟩
    · rw [hdue i f (by rw [hf]; simp)]
      exact hu.due i f hf
    · rcases hact i c hci with hold | ⟨hlt, -, -⟩
      · exact hu.active i hold
      · exact absurd hlt (Nat.not_lt.2 hc)
  calm := hi.calm
  first := hi.first
  after := hi.after
  alive := hi.alive

/-- One loop moves. -/
theorem Inv.setLoop (hi : Inv start s h) {i : Nat}
    {w : Worker ServerFunctor} (hq : w.QueueInv) (ht : w.threadId = i)
    {A : Nat → List Nat} {cur : Nat → Option Nat}
    (hcount : ∀ f, f.conn ≠ none →
      w.queue.waiting.count f + (if h' = some (i, f) then 1 else 0)
        = s.due h i f)
    (hh : ∀ j f, j ≠ i → (h' = some (j, f) ↔ h = some (j, f)))
    (hact : ∀ j c, c ∈ A j → c ∈ s.activeChannels j
      ∨ (c < s.numConns ∧ (s.conns c).loop = j
        ∧ (s.conns c).watched = true)) :
    Inv start { s.setLoop i w with
      activeChannels := A, currentActiveChannel := cur } h' := by
  refine hi.relocate (L := Function.update s.loops i w)
    ((Function.forall_update_iff s.loops fun _ v => v.QueueInv).2
      ⟨hq, fun j _ => hi.queue j⟩)
    ((Function.forall_update_iff s.loops fun j v => v.threadId = j).2
      ⟨ht, fun j _ => hi.thread j⟩)
    (fun j f hf => ?_) hact
  by_cases hj : j = i
  · subst hj
    rw [← hcount f hf]
    unfold due
    simp only [Function.update_self]
  · unfold due
    simp only [Function.update_of_ne hj, hh j f hj]

/-- Something has happened in the life of one connection, and perhaps in
the registry. -/
def lived (s : ServerLoops) (r : RegistryRun) (c : Nat) (conn : ServerConn)
    (e : LifeEvent) : ServerLoops :=
  { s with
    registry := r
    conns := Function.update s.conns c conn
    log := s.log ++ [e] }

section Lived

variable {r : RegistryRun} {c : Nat} {conn : ServerConn} {e : LifeEvent}

@[simp] theorem lived_conn : (s.lived r c conn e).conns c = conn :=
  Function.update_self ..

@[simp] theorem lived_count (x : LifeEvent) : (s.lived r c conn e).log.count x
    = s.log.count x + if e = x then 1 else 0 := count_log_snoc ..

@[simp] theorem lived_due (i : Nat) (f : ServerFunctor) :
    (s.lived r c conn e).due h i f = s.due h i f := rfl

/-- The others do not notice. -/
theorem Inv.life (hi : Inv start s h) (hc : c < s.numConns) (he : e.conn = c)
    (hr : r.Inv) (hnext : r.reg.nextConnId = s.registry.reg.nextConnId)
    (hids : r.reg.ids = s.registry.reg.ids)
    (hlive : ∀ c', c' ≠ c → (c' ∈ r.live ↔ c' ∈ s.registry.live))
    (hh : ∀ i f, f.conn ≠ some c → (h' = some (i, f) ↔ h = some (i, f)))
    (hacct : (s.lived r c conn e).Acct h' c)
    (hcalm : ∀ x, e ≠ .destroyed x true)
    (hfirst : e = .handler c ∨ e = .closed c → .established c ∈ s.log)
    (hafter : ∀ b, e = .destroyed c b → .closed c ∈ s.log) :
    Inv start (s.lived r c conn e) h' where
  registry := hr
  counter := hnext.trans hi.counter
  ids := by
    show ∀ id ∈ r.reg.ids, _
    rw [hids]
    exact hi.ids
  queue := hi.queue
  thread := hi.thread
  acct := by
    intro c' hc'
    change c' < r.reg.ids.length at hc'
    rw [hids] at hc'
    by_cases hcc : c' = c
    · subst hcc
      exact hacct
    · refine (hi.acct c' hc').frame (fun x _ hx => ?_) (fun i f hf => ?_)
        (Function.update_of_ne hcc _ _) (hlive c' hcc) (hi.acct c' hc').active
      · rw [lived_count, if_neg, Nat.add_zero]
        intro hex
        rw [← hex, he] at hx
        exact hcc hx.symm
      · have hiff := hh i f (by rw [hf]; simpa using hcc)
        unfold due
        simp only [hiff]
        rfl
  unborn := by
    intro c' hc'
    change r.reg.ids.length ≤ c' at hc'
    rw [hids] at hc'
    have hcc : c' ≠ c := by
      intro heq
      rw [heq] at hc'
      exact absurd hc (Nat.not_lt.2 hc')
    have hu := hi.unborn c' hc'
    refine ⟨fun x hx => ?_, fun i f hf => ?_, hu.active⟩
    · rcases List.mem_append.1 hx with hx | hx
      · exact hu.log x hx
      · rw [List.mem_singleton.1 hx, he]
        exact fun heq => hcc heq.symm
    · have hold := hu.due i f hf
      have hiff := hh i f (by rw [hf]; simpa using hcc)
      unfold due at hold ⊢
      simp only [hiff]
      exact hold
  calm := by
    intro x hx
    rcases List.mem_append.1 hx with hx | hx
    · exact hi.calm x hx
    · exact hcalm x (List.mem_singleton.1 hx).symm
  first := by
    refine atEach_snoc.2 ⟨hi.first, fun x hx => ?_⟩
    have hxc : x = c := by
      rw [← he]
      rcases hx with hx | hx <;> rw [hx] <;> rfl
    subst hxc
    exact hfirst hx
  after := by
    refine atEach_snoc.2 ⟨hi.after, fun x b hx => ?_⟩
    have hxc : x = c := by
      rw [← he, hx]
      rfl
    subst hxc
    exact hafter b hx
  alive := hi.alive

end Lived

-- ================================================================ pushes

/-- What is in hand is pushed. -/
theorem inv_push {i : Nat} {f : ServerFunctor}
    (hi : Inv start s (some (i, f))) (t : Nat) :
    Inv start (s.queueInLoop i t f) none := by
  refine hi.setLoop (A := s.activeChannels)
    (Worker.queueInv_submit (hi.queue i) t f)
    ((Worker.threadId_submit _ t f).trans (hi.thread i)) (fun g _ => ?_)
    (fun j g hj => ?_) (fun _ _ => .inl)
  · unfold due
    rw [Worker.waiting_submit, List.count_append, List.count_singleton]
    simp
  · refine iff_of_false (by simp) (fun heq => ?_)
    cases heq
    exact hj rfl

-- ============================================================== calls

/-- What is in hand is due. -/
theorem due_pos (s : ServerLoops) (i : Nat) (f : ServerFunctor) :
    0 < s.due (some (i, f)) i f := by
  unfold due
  rw [if_pos rfl]
  omega

/-- Letting go of what is in hand. -/
theorem due_release (s : ServerLoops) (i : Nat) (f : ServerFunctor) (j : Nat)
    (g : ServerFunctor) :
    s.due (some (i, f)) j g
      = s.due none j g + if i = j ∧ f = g then 1 else 0 := by
  unfold due
  simp

/-- A connection with a functor in hand exists. -/
theorem Inv.exists_of_hand {i c : Nat} {f : ServerFunctor}
    (hi : Inv start s (some (i, f))) (hf : f.conn = some c) :
    c < s.numConns := by
  by_contra hge
  have hzero := (hi.unborn c (Nat.not_lt.1 hge)).due i f hf
  have hpos := due_pos s i f
  omega

theorem mem_of_count_pos {l : List LifeEvent} {e : LifeEvent}
    (h : l.count e = 1) : e ∈ l :=
  List.count_pos_iff.1 (by omega)

/-- A functor of the connection itself may leave the hand, or come into
it. -/
theorem hand_own {c : Nat}
    (hh : ∀ i f, h = some (i, f) → f.conn = some c)
    (hh' : ∀ i f, h' = some (i, f) → f.conn = some c) :
    ∀ i f, f.conn ≠ some c → (h' = some (i, f) ↔ h = some (i, f)) :=
  fun i f hf => iff_of_false (fun heq => hf (hh' i f heq))
    (fun heq => hf (hh i f heq))

/-- The account of a connection that has just been established. -/
theorem acct_established {c : Nat}
    (ha : Acct s (some ((s.conns c).loop, .ConnectionEstablished c)) c) :
    s.log.count (.established c) = 0
      ∧ (s.lived s.registry c
        { s.conns c with state := .kConnected, watched := true }
        (.established c)).Acct none c := by
  have hpos := due_pos s (s.conns c).loop (.ConnectionEstablished c)
  have hest := ha.est
  have hrem := ha.rem
  have hdes := ha.des
  have hopen := ha.opened
  have hzero : s.log.count (.established c) = 0 := by omega
  have hrel := due_release s (s.conns c).loop (.ConnectionEstablished c)
  have hrelE := hrel (s.conns c).loop (.ConnectionEstablished c)
  have hrelR := fun j => hrel j (.RemoveConnectionInLoop c)
  have hrelD := fun j => hrel j (.ConnectionDestroyed c)
  simp only [reduceCtorEq, and_false, and_self, if_true, if_false,
    Nat.add_zero] at hrelE hrelR hrelD
  refine ⟨hzero, ?_⟩
  exact
    { est := by simp only [lived_conn, lived_count, lived_due, if_true]; omega
      rem := by
        simp only [lived_count, lived_due, reduceCtorEq, if_false]
        rw [← hrelR]
        omega
      des := by
        simp only [lived_conn, lived_count, lived_due, reduceCtorEq, if_false]
        rw [← hrelD]
        omega
      once := by
        simp only [lived_count, reduceCtorEq, if_false]
        exact ha.once
      opened := by
        simp only [lived_count, reduceCtorEq, if_false]
        omega
      estAt := fun j hj => by
        simp only [lived_conn] at hj
        have hold := ha.estAt j hj
        rw [hrel] at hold
        rw [lived_due]
        omega
      remAt := fun j hj => by
        rw [lived_due, ← hrelR]
        exact ha.remAt j hj
      desAt := fun j hj => by
        simp only [lived_conn] at hj
        rw [lived_due, ← hrelD]
        exact ha.desAt j hj
      connecting := by simp
      disconnected := by
        simp only [lived_conn, lived_count, reduceCtorEq, if_false, false_iff]
        omega
      live := by
        simp only [lived_count, reduceCtorEq, if_false]
        exact ha.live
      watched := fun _ => by
        simp only [lived_count, if_true]
        omega
      active := fun j hj => by
        have hold := (ha.active j hj).2
        omega }

/-- `ConnectionEstablished`, in hand, is called: its assertion holds. -/
theorem inv_ConnectionEstablished {i c : Nat}
    (hi : Inv start s (some (i, .ConnectionEstablished c))) :
    ∃ s', s.ConnectionEstablished c = .ok s' ∧ Inv start s' none := by
  have hc := hi.exists_of_hand (c := c) rfl
  have ha := hi.acct c hc
  have hpos := due_pos s i (.ConnectionEstablished c)
  have hloop : i = (s.conns c).loop := by
    by_contra hne
    have := ha.estAt i hne
    omega
  subst hloop
  obtain ⟨hzero, hacct⟩ := acct_established ha
  refine ⟨s.lived s.registry c
    { s.conns c with state := .kConnected, watched := true } (.established c),
    ?_, hi.life hc rfl hi.registry rfl rfl (fun _ _ => Iff.rfl)
      (hand_own (by simp +contextual [ServerFunctor.conn]) (by simp)) hacct
      (by simp) (by simp) (by simp)⟩
  unfold ConnectionEstablished
  rw [require_bind (ha.connecting.2 hzero)]
  rfl

/-- The account of a connection that has just been destroyed: it was
closed. -/
theorem acct_destroyed {c : Nat}
    (ha : Acct s (some ((s.conns c).loop, .ConnectionDestroyed c)) c) :
    s.log.count (.closed c) = 1
      ∧ (s.lived s.registry c
        { s.conns c with state := .kDisconnected, watched := false }
        (.destroyed c false)).Acct none c := by
  have hpos := due_pos s (s.conns c).loop (.ConnectionDestroyed c)
  have hest := ha.est
  have hrem := ha.rem
  have hdes := ha.des
  have hopen := ha.opened
  have honce := ha.once
  have hclosed : s.log.count (.closed c) = 1 := by omega
  have hrel := due_release s (s.conns c).loop (.ConnectionDestroyed c)
  have hrelD := hrel (s.conns c).loop (.ConnectionDestroyed c)
  have hrelR := fun j => hrel j (.RemoveConnectionInLoop c)
  have hrelE := fun j => hrel j (.ConnectionEstablished c)
  simp only [reduceCtorEq, and_false, and_self, if_true, if_false,
    Nat.add_zero] at hrelE hrelR hrelD
  refine ⟨hclosed, ?_⟩
  exact
    { est := by
        simp only [lived_conn, lived_count, lived_due, reduceCtorEq, if_false]
        rw [← hrelE]
        omega
      rem := by
        simp only [lived_count, lived_due, reduceCtorEq, if_false]
        rw [← hrelR]
        omega
      des := by
        simp only [lived_conn, lived_count, lived_due, reduceCtorEq, if_false,
          if_true]
        omega
      once := by
        simp only [lived_count, reduceCtorEq, if_false]
        exact honce
      opened := by
        simp only [lived_count, reduceCtorEq, if_false]
        exact hopen
      estAt := fun j hj => by
        simp only [lived_conn] at hj
        rw [lived_due, ← hrelE]
        exact ha.estAt j hj
      remAt := fun j hj => by
        rw [lived_due, ← hrelR]
        exact ha.remAt j hj
      desAt := fun j hj => by
        simp only [lived_conn] at hj
        have hold := ha.desAt j hj
        rw [hrel] at hold
        rw [lived_due]
        omega
      connecting := by
        simp only [lived_conn, lived_count, reduceCtorEq, if_false, false_iff]
        omega
      disconnected := by
        simp only [lived_conn, lived_count, reduceCtorEq, if_false, true_iff]
        exact hclosed
      live := by
        simp only [lived_count, reduceCtorEq, if_false]
        exact ha.live
      watched := fun hw => by simp at hw
      active := fun j hj => by
        simp only [lived_conn, lived_count, reduceCtorEq, if_false]
        exact ha.active j hj }

/-- `ConnectionDestroyed`, in hand, is called outside event handling: the
assertion of `Worker::removeChannel` holds. -/
theorem inv_ConnectionDestroyed {i c : Nat}
    (hi : Inv start s (some (i, .ConnectionDestroyed c)))
    (hpc : s.eventHandling i = false) :
    ∃ s', s.ConnectionDestroyed c = .ok s' ∧ Inv start s' none := by
  have hc := hi.exists_of_hand (c := c) rfl
  have ha := hi.acct c hc
  have hpos := due_pos s i (.ConnectionDestroyed c)
  have hloop : i = (s.conns c).loop := by
    by_contra hne
    have := ha.desAt i hne
    omega
  subst hloop
  obtain ⟨hclosed, hacct⟩ := acct_destroyed ha
  have hstate := ha.disconnected.2 hclosed
  refine ⟨s.lived s.registry c
    { s.conns c with state := .kDisconnected, watched := false }
    (.destroyed c false),
    ?_, hi.life hc rfl hi.registry rfl rfl (fun _ _ => Iff.rfl)
      (hand_own (by simp +contextual [ServerFunctor.conn]) (by simp)) hacct
      (by simp) (by simp)
      (fun _ _ => mem_of_count_pos hclosed)⟩
  unfold ConnectionDestroyed
  simp only [hpc, hstate]
  rw [require_bind (by simp)]
  rfl

/-- A `RemoveConnectionInLoop` in hand is on the server's loop, of a
connection that is closed and not removed yet. -/
theorem Inv.hand_remove {i c : Nat}
    (hi : Inv start s (some (i, .RemoveConnectionInLoop c))) :
    c < s.numConns ∧ i = 0 ∧ s.log.count (.removed c) = 0 := by
  have hc := hi.exists_of_hand (c := c) rfl
  have ha := hi.acct c hc
  have hpos := due_pos s i (.RemoveConnectionInLoop c)
  have hloop : i = 0 := by
    by_contra hne
    have := ha.remAt i hne
    omega
  subst hloop
  have hrem := ha.rem
  have honce := ha.once
  exact ⟨hc, rfl, by omega⟩

/-- The account of a connection that has just been removed, with its
`ConnectionDestroyed` in hand. -/
theorem acct_removed {c : Nat}
    (hi : Inv start s (some (0, .RemoveConnectionInLoop c))) :
    (s.lived (s.registry.removed c) c (s.conns c) (.removed c)).Acct
      (some ((s.conns c).loop, .ConnectionDestroyed c)) c := by
  obtain ⟨hc, -, hremoved⟩ := hi.hand_remove
  have ha := hi.acct c hc
  have hest := ha.est
  have hrem := ha.rem
  have hdes := ha.des
  have hrel := due_release s 0 (.RemoveConnectionInLoop c)
  have hrel' := due_release s (s.conns c).loop (.ConnectionDestroyed c)
  have hE : ∀ j, s.due (some ((s.conns c).loop, .ConnectionDestroyed c)) j
      (.ConnectionEstablished c)
      = s.due (some (0, .RemoveConnectionInLoop c)) j
        (.ConnectionEstablished c) := by
    intro j
    rw [hrel, hrel']
    simp
  have hR := hrel 0 (.RemoveConnectionInLoop c)
  have hR' := fun j => hrel' j (.RemoveConnectionInLoop c)
  have hD := fun j => hrel j (.ConnectionDestroyed c)
  have hD' := hrel' (s.conns c).loop (.ConnectionDestroyed c)
  simp only [reduceCtorEq, and_false, and_self, if_true, if_false,
    Nat.add_zero] at hR hR' hD hD'
  exact
    { est := by
        simp only [lived_conn, lived_count, lived_due, reduceCtorEq,
          if_false, hE]
        omega
      rem := by
        simp only [lived_count, lived_due, reduceCtorEq, if_false, if_true,
          hR']
        omega
      des := by
        simp only [lived_conn, lived_count, lived_due, reduceCtorEq,
          if_false, if_true]
        have hold := hD (s.conns c).loop
        omega
      once := by
        simp only [lived_count, reduceCtorEq, if_false]
        exact ha.once
      opened := by
        simp only [lived_count, reduceCtorEq, if_false]
        exact ha.opened
      estAt := fun j hj => by
        simp only [lived_conn] at hj
        rw [lived_due, hE]
        exact ha.estAt j hj
      remAt := fun j hj => by
        have hold := ha.remAt j hj
        rw [hrel] at hold
        rw [lived_due, hR']
        omega
      desAt := fun j hj => by
        simp only [lived_conn] at hj
        have hold := ha.desAt j hj
        rw [hD] at hold
        rw [lived_due, hrel', hold, if_neg (fun heq => hj heq.1.symm)]
      connecting := by
        simp only [lived_conn, lived_count, reduceCtorEq, if_false]
        exact ha.connecting
      disconnected := by
        simp only [lived_conn, lived_count, reduceCtorEq, if_false]
        exact ha.disconnected
      live := by
        simp only [lived_count, if_true]
        refine iff_of_false ?_ (by omega)
        show c ∉ s.registry.live.erase c
        rw [hi.registry.nodup.mem_erase_iff]
        exact fun hmem => hmem.1 rfl
      watched := by
        simp only [lived_conn, lived_count, reduceCtorEq, if_false]
        exact ha.watched
      active := fun j hj => by
        simp only [lived_conn, lived_count, reduceCtorEq, if_false]
        exact ha.active j hj }

/-- `RemoveConnectionInLoop`, in hand, is called: the erase removes one
entry, and `ConnectionDestroyed` is queued on the connection's loop. -/
theorem inv_RemoveConnectionInLoop {i c : Nat}
    (hi : Inv start s (some (i, .RemoveConnectionInLoop c))) :
    ∃ s', s.RemoveConnectionInLoop c = .ok s' ∧ Inv start s' none := by
  obtain ⟨hc, rfl, hremoved⟩ := hi.hand_remove
  have hlive := (hi.acct c hc).live.2 hremoved
  have hmid : Inv start (s.lived (s.registry.removed c) c (s.conns c)
      (.removed c)) (some ((s.conns c).loop, .ConnectionDestroyed c)) :=
    hi.life hc rfl (RegistryRun.inv_removed hi.registry hlive) rfl rfl
      (fun c' hne => List.mem_erase_of_ne hne)
      (hand_own (by simp +contextual [ServerFunctor.conn])
        (by simp +contextual [ServerFunctor.conn])) (acct_removed hi)
      (by simp) (by simp) (by simp)
  refine ⟨_, ?_, inv_push hmid 0⟩
  unfold RemoveConnectionInLoop
  rw [require_bind hi.alive, RegistryRun.step_remove hi.registry hlive]
  unfold lived
  rw [Function.update_eq_self]
  rfl

/-- What is in hand is called on its loop; `ConnectionDestroyed` only
outside event handling. -/
theorem inv_apply {i : Nat} {f : ServerFunctor}
    (hi : Inv start s (some (i, f)))
    (hpc : ∀ c, f = .ConnectionDestroyed c → s.eventHandling i = false) :
    ∃ s', s.apply f = .ok s' ∧ Inv start s' none := by
  cases f with
  | ConnectionEstablished c => exact inv_ConnectionEstablished hi
  | RemoveConnectionInLoop c => exact inv_RemoveConnectionInLoop hi
  | ConnectionDestroyed c => exact inv_ConnectionDestroyed hi (hpc c rfl)
  | user k =>
      refine ⟨s, rfl, hi.relocate hi.queue hi.thread (fun j g hg => ?_)
        (fun _ _ => .inl)⟩
      unfold due
      rw [if_neg (by simp), if_neg (fun heq => ?_)]
      cases heq
      exact hg rfl

/-- `runInLoop`, with the functor in hand. -/
theorem inv_runInLoop {i : Nat} {f : ServerFunctor}
    (hi : Inv start s (some (i, f))) (t : Nat)
    (hf : ∀ c, f ≠ .ConnectionDestroyed c) :
    ∃ s', s.runInLoop i t f = .ok s' ∧ Inv start s' none := by
  unfold runInLoop
  split
  · exact inv_apply hi (fun c heq => absurd heq (hf c))
  · exact ⟨_, rfl, inv_push hi t⟩

-- ===================================================== accept and close

/-- The counter has not come round: the next value is nobody's. -/
theorem Inv.fresh_id (hi : Inv start s h) (hb : s.issued < 2 ^ 32) :
    ∀ c ∈ s.registry.live,
      s.registry.reg.ids.getD c 0 ≠ s.registry.reg.nextConnId := by
  intro c hc heq
  have hlt := hi.registry.made c hc
  have hmem : s.registry.reg.ids.getD c 0 ∈ s.registry.reg.ids := by
    rw [List.getD_eq_getElem _ _ hlt]
    exact List.getElem_mem hlt
  obtain ⟨k, hk, hid⟩ := hi.ids _ hmem
  rw [heq, hi.counter] at hid
  have hofNat := congrArg BitVec.toNat (add_left_cancel hid)
  rw [BitVec.toNat_ofNat, BitVec.toNat_ofNat, Nat.mod_eq_of_lt hb,
    Nat.mod_eq_of_lt (by omega)] at hofNat
  omega

/-- With its `ConnectionEstablished` in hand, nothing else is due for a
new connection, and for the others what was due before. -/
theorem due_record (hi : Inv start s none) (j : Nat) (f : ServerFunctor) :
    (f.conn = some s.numConns → f ≠ .ConnectionEstablished s.numConns →
      s.record.due (some (s.getNextLoop.1,
        .ConnectionEstablished s.numConns)) j f = 0)
    ∧ (∀ c, c ≠ s.numConns → f.conn = some c →
      s.record.due (some (s.getNextLoop.1,
        .ConnectionEstablished s.numConns)) j f = s.due none j f) := by
  have hsame : s.record.due none j f = s.due none j f := rfl
  rw [due_release, hsame]
  constructor
  · intro hf hne
    rw [(hi.unborn s.numConns le_rfl).due j f hf,
      if_neg (fun heq => hne heq.2.symm)]
  · intro c hne hf
    rw [if_neg, Nat.add_zero]
    intro heq
    rw [← heq.2] at hf
    exact hne (Option.some.inj hf).symm

/-- The `ConnectionEstablished` of a new connection is due on its loop. -/
theorem due_record_established (hi : Inv start s none) (j : Nat) :
    s.record.due (some (s.getNextLoop.1,
      .ConnectionEstablished s.numConns)) j (.ConnectionEstablished s.numConns)
      = if s.getNextLoop.1 = j then 1 else 0 := by
  have hsame : s.record.due none j (.ConnectionEstablished s.numConns)
      = s.due none j (.ConnectionEstablished s.numConns) := rfl
  rw [due_release, hsame, (hi.unborn s.numConns le_rfl).due _ _ rfl,
    Nat.zero_add]
  simp only [and_true]

/-- The account of a new connection. -/
theorem acct_record (hi : Inv start s none) : s.record.Acct
    (some (s.getNextLoop.1, .ConnectionEstablished s.numConns)) s.numConns := by
  have hconn : s.record.conns s.numConns
      = ⟨s.getNextLoop.1, .kConnecting, false⟩ := Function.update_self ..
  have hu := hi.unborn s.numConns le_rfl
  have hcount : ∀ x : LifeEvent, x.conn = s.numConns →
      s.record.log.count x = 0 :=
    fun x hx => List.count_eq_zero.2 fun hmem => hu.log x hmem hx
  have hzero := fun j f hf hne => (due_record hi j f).1 hf hne
  exact
    { est := by
        rw [hconn, due_record_established hi, if_pos rfl, hcount _ rfl]
      rem := by rw [hzero _ _ rfl (by simp), hcount _ rfl, hcount _ rfl]
      des := by rw [hzero _ _ rfl (by simp), hcount _ rfl, hcount _ rfl]
      once := by
        rw [hcount _ rfl]
        omega
      opened := by
        rw [hcount _ rfl]
        omega
      estAt := fun j hj => by
        rw [hconn] at hj
        rw [due_record_established hi, if_neg hj.symm]
      remAt := fun j _ => hzero _ _ rfl (by simp)
      desAt := fun j _ => hzero _ _ rfl (by simp)
      connecting := by
        rw [hconn]
        exact iff_of_true rfl (hcount (.established _) rfl)
      disconnected := by
        rw [hconn]
        apply iff_of_false (by simp)
        rw [hcount _ rfl]
        omega
      live := by
        refine iff_of_true ?_ (hcount (.removed _) rfl)
        exact List.mem_append_right _ (List.mem_singleton_self _)
      watched := by
        rw [hconn]
        intro hw
        cases hw
      active := fun j hj => absurd hj (hu.active j) }

/-- A new connection exists, and its `ConnectionEstablished` is in hand. -/
theorem inv_record (hi : Inv start s none) (hb : s.issued < 2 ^ 32) :
    Inv start s.record
      (some (s.getNextLoop.1, .ConnectionEstablished s.numConns)) := by
  have hn : s.record.numConns = s.numConns + 1 := by
    show (s.registry.reg.ids ++ [_]).length = _
    rw [List.length_append]
    rfl
  exact
    { registry := RegistryRun.inv_established hi.registry (hi.fresh_id hb)
      counter := by
        show s.registry.reg.nextConnId + 1 = _
        rw [hi.counter, BitVec.add_assoc]
        apply congrArg (start + ·)
        show BitVec.ofNat 32 s.issued + 1 = BitVec.ofNat 32 (s.issued + 1)
        rw [BitVec.ofNat_add]
        rfl
      ids := by
        intro id hid
        show ∃ k, k < s.issued + 1 ∧ _
        rcases List.mem_append.1 hid with hid | hid
        · obtain ⟨k, hk, rfl⟩ := hi.ids id hid
          exact ⟨k, by omega, rfl⟩
        · rw [List.mem_singleton.1 hid]
          exact ⟨s.issued, by omega, hi.counter⟩
      queue := hi.queue
      thread := hi.thread
      acct := by
        intro c hc
        by_cases hcc : c = s.numConns
        · rw [hcc]
          exact acct_record hi
        · have hlt : c < s.numConns := by omega
          refine (hi.acct c hlt).frame (fun _ _ _ => rfl)
            (fun j f hf => (due_record hi j f).2 c hcc hf)
            (Function.update_of_ne hcc _ _) ?_ (hi.acct c hlt).active
          show c ∈ s.registry.live ++ [s.numConns] ↔ _
          rw [List.mem_append, List.mem_singleton]
          simp [hcc]
      unborn := by
        intro c hc
        rw [hn] at hc
        have hold := hi.unborn c (by omega)
        refine ⟨hold.log, fun j f hf => ?_, hold.active⟩
        rw [(due_record hi j f).2 c (by omega) hf]
        exact hold.due j f hf
      calm := hi.calm
      first := hi.first
      after := hi.after
      alive := hi.alive }

/-- A connection that is established and not closed is up. -/
theorem Acct.up {c : Nat} (ha : Acct s h c)
    (hest : s.log.count (.established c) = 1)
    (hclosed : s.log.count (.closed c) = 0) :
    (s.conns c).state = .kConnected ∨ (s.conns c).state = .kDisconnecting := by
  cases hs : (s.conns c).state with
  | kConnected => exact .inl rfl
  | kDisconnecting => exact .inr rfl
  | kConnecting =>
      have hzero := ha.connecting.1 hs
      omega
  | kDisconnected =>
      have hone := ha.disconnected.1 hs
      omega

/-- The account of a connection that has just been closed, with its
`RemoveConnectionInLoop` in hand. -/
theorem acct_closed {c : Nat} (ha : Acct s none c)
    (hest : s.log.count (.established c) = 1)
    (hclosed : s.log.count (.closed c) = 0) :
    (s.lived s.registry c
      { s.conns c with state := .kDisconnected, watched := false }
      (.closed c)).Acct (some (0, .RemoveConnectionInLoop c)) c := by
  have hrem := ha.rem
  have hrel := due_release s 0 (.RemoveConnectionInLoop c)
  have hR := hrel 0 (.RemoveConnectionInLoop c)
  have hE := fun j => hrel j (.ConnectionEstablished c)
  have hD := fun j => hrel j (.ConnectionDestroyed c)
  simp only [reduceCtorEq, and_false, and_self, if_true, if_false,
    Nat.add_zero] at hR hE hD
  exact
    { est := by
        simp only [lived_conn, lived_count, lived_due, reduceCtorEq, if_false,
          hE]
        exact ha.est
      rem := by
        simp only [lived_count, lived_due, reduceCtorEq, if_false, if_true]
        omega
      des := by
        simp only [lived_conn, lived_count, lived_due, reduceCtorEq, if_false,
          hD]
        exact ha.des
      once := by
        simp only [lived_count, if_true]
        omega
      opened := by
        simp only [lived_count, reduceCtorEq, if_false, if_true]
        omega
      estAt := fun j hj => by
        simp only [lived_conn] at hj
        rw [lived_due, hE]
        exact ha.estAt j hj
      remAt := fun j hj => by
        rw [lived_due, hrel, ha.remAt j hj,
          if_neg (fun heq => hj heq.1.symm)]
      desAt := fun j hj => by
        simp only [lived_conn] at hj
        rw [lived_due, hD]
        exact ha.desAt j hj
      connecting := by
        simp only [lived_conn, lived_count, reduceCtorEq, if_false, false_iff]
        omega
      disconnected := by
        simp only [lived_conn, lived_count, if_true, true_iff]
        omega
      live := by
        simp only [lived_count, reduceCtorEq, if_false]
        exact ha.live
      watched := fun hw => by simp at hw
      active := fun j hj => by
        simp only [lived_conn, lived_count, reduceCtorEq, if_false]
        exact ha.active j hj }

/-- The first `handleClose` of an active connection passes its assertion,
and puts `RemoveConnectionInLoop` in hand. -/
theorem inv_handleClose {i c : Nat} (hi : Inv start s none)
    (hact : c ∈ s.activeChannels i) (hfirst : .closed c ∉ s.log) :
    ∃ s', s.handleClose i c = .ok s' ∧ Inv start s' none := by
  have hc : c < s.numConns := by
    by_contra hge
    exact (hi.unborn c (Nat.not_lt.1 hge)).active i hact
  have ha := hi.acct c hc
  have hest := (ha.active i hact).2
  have hclosed : s.log.count (.closed c) = 0 := List.count_eq_zero.2 hfirst
  have hmid : Inv start (s.lived s.registry c
      { s.conns c with state := .kDisconnected, watched := false } (.closed c))
      (some (0, .RemoveConnectionInLoop c)) :=
    hi.life hc rfl hi.registry rfl rfl (fun _ _ => Iff.rfl)
      (hand_own (by simp) (by simp +contextual [ServerFunctor.conn]))
      (acct_closed ha hest hclosed)
      (by simp) (fun _ => mem_of_count_pos hest) (by simp)
  obtain ⟨s', hok, hinv⟩ := inv_runInLoop hmid i (by simp)
  refine ⟨s', ?_, hinv⟩
  unfold handleClose
  simp only
  rw [require_bind (ha.up hest hclosed), require_bind hi.alive]
  exact hok

-- ============================================================ the steps

theorem inv_atChannel (hi : Inv start s none) (i : Nat) (c : Option Nat) :
    Inv start (s.atChannel i c) none :=
  hi.relocate hi.queue hi.thread (fun _ _ _ => rfl) (fun _ _ => .inl)

theorem userAct_lift {a : WorkerAct Nat} {a' : WorkerAct ServerFunctor}
    (h : userAct a = some a') : a.lift .user = some a' := by
  cases a with
  | pollReturn => cases h
  | _ => exact h

theorem inv_loop (hi : Inv start s none) {i : Nat} {a : WorkerAct Nat}
    {a' : WorkerAct ServerFunctor} (ha : userAct a = some a')
    {w : Worker ServerFunctor} (hw : (s.loops i).step a' = .ok w) :
    Inv start (s.setLoop i w) none := by
  have hm := Worker.step_moves hw
  obtain ⟨fs, hwait, hfs⟩ := Worker.waiting_lift (hi.queue i) (userAct_lift ha) hw
  refine hi.setLoop (A := s.activeChannels)
    (Worker.queueInv_moves (hi.queue i) hm)
    (hm.threadId.trans (hi.thread i)) (fun f hf => ?_) (fun _ _ _ => Iff.rfl)
    (fun _ _ => .inl)
  have hnone : fs.count f = 0 := by
    refine List.count_eq_zero.2 fun hmem => ?_
    obtain ⟨k, rfl⟩ := hfs f hmem
    exact hf rfl
  unfold due
  rw [hwait, List.count_append, hnone, Nat.add_zero]

theorem inv_pollReturn (hi : Inv start s none) {i : Nat}
    (hpc : (s.loops i).canLoop .polling = true) (active : List Nat) :
    ∃ s', s.step (.pollReturn i active) = .ok s' ∧ Inv start s' none := by
  have hm : Worker.Moves (s.loops i) .pollReturn
      { s.loops i with pc := .handling } := .polled hpc
  refine ⟨_, by simp only [step, if_pos hpc]; rfl,
    hi.setLoop (Worker.queueInv_moves (hi.queue i) hm) (hi.thread i)
      (fun _ _ => rfl) (fun _ _ _ => Iff.rfl) (fun j c hc => ?_)⟩
  by_cases hj : j = i
  · subst hj
    rw [Function.update_self, List.mem_filter] at hc
    simp only [Bool.and_eq_true, decide_eq_true_eq, beq_iff_eq] at hc
    exact .inr ⟨hc.2.1.1, hc.2.1.2, hc.2.2⟩
  · rw [Function.update_of_ne hj] at hc
    exact .inl hc

/-- Calling takes the functor into the hand. -/
theorem inv_take (hi : Inv start s none) {i : Nat} {f : ServerFunctor}
    {rest : List ServerFunctor} (hpc : (s.loops i).canLoop .draining = true)
    (hf : (s.loops i).queue.functors = f :: rest) :
    Inv start (s.setLoop i (s.loops i).callFunctor) (some (i, f)) := by
  have hm : Worker.Moves (s.loops i) .call (s.loops i).callFunctor := .call hpc
  refine hi.setLoop (A := s.activeChannels)
    (Worker.queueInv_moves (hi.queue i) hm)
    (hm.threadId.trans (hi.thread i)) (fun g _ => ?_) (fun j g hj => ?_)
    (fun _ _ => .inl)
  · unfold due
    rw [Worker.waiting_callFunctor hf, List.count_cons]
    simp
  · refine iff_of_false (fun heq => ?_) (by simp)
    cases heq
    exact hj rfl

/-- The step names a connection: of this server, or of another one. -/
def names (s : ServerLoops) : ServerAct → Bool
  | .HandleRead .connfd => s.alive && s.canHandle 0 && s.newConnCb
  | .otherServer => true
  | _ => false

/-- The step enters `handleClose` of a connection. -/
def closes (s : ServerLoops) : ServerAct → Option Nat
  | .handleClose i c =>
      if s.canHandle i && decide (c ∈ s.activeChannels i) then some c else none
  | _ => none

/-- Fewer than `2^32` connections have been named, no connection enters
`handleClose` twice, and the server stays alive. -/
structure Within (s : ServerLoops) (a : ServerAct) : Prop where
  few : s.names a = true → s.issued + 1 < 2 ^ 32
  once : ∀ c, s.closes a = some c → .closed c ∉ s.log
  stays : a ≠ .destroyServer

instance (s : ServerLoops) (a : ServerAct) : Decidable (Within s a) :=
  decidable_of_iff ((s.names a = true → s.issued + 1 < 2 ^ 32)
      ∧ (∀ c ∈ s.closes a, .closed c ∉ s.log) ∧ a ≠ .destroyServer)
    ⟨fun h => ⟨h.1, h.2.1, h.2.2⟩, fun h => ⟨h.few, h.once, h.stays⟩⟩

/-- What the account does not read: descriptors, dead objects, and the
counter, as long as it only goes on. -/
theorem Inv.outside (hi : Inv start s none) {n : BitVec 32} {k : Nat}
    {D : List Descriptor} {X : List Nat}
    (hn : n = start + BitVec.ofNat 32 k) (hk : s.issued ≤ k) :
    Inv start { s with
      registry := { s.registry with
        reg := { s.registry.reg with nextConnId := n } }
      descriptors := D
      issued := k
      dead := X } none := by
  have hf := hi.registry.faithful
  refine ⟨⟨hi.registry.short, hi.registry.made, hi.registry.nodup,
    hf.distinct, hf.mapped, hf.only, hf.own⟩, hn, fun id hid => ?_,
    hi.queue, hi.thread, fun c hc => ?_, fun c hc => ?_, hi.calm, hi.first,
    hi.after, hi.alive⟩
  · obtain ⟨j, hj, rfl⟩ := hi.ids id hid
    exact ⟨j, Nat.lt_of_lt_of_le hj hk, rfl⟩
  · exact (hi.acct c hc).frame (fun _ _ _ => rfl) (fun _ _ _ => rfl) rfl
      Iff.rfl (hi.acct c hc).active
  · have hu := hi.unborn c hc
    exact ⟨hu.log, hu.due, hu.active⟩

theorem inv_HandleRead (hi : Inv start s none) (r : AcceptResult)
    (hb : r = .connfd → s.newConnCb = true → s.issued + 1 < 2 ^ 32) :
    ∃ s', s.HandleRead r = .ok s' ∧ Inv start s' none := by
  have hfd : ∀ ds, Inv start { s with descriptors := ds } none :=
    fun ds => hi.outside (X := s.dead) hi.counter le_rfl
  cases r with
  | connfd =>
      cases hcb : s.newConnCb with
      | false =>
          refine ⟨_, ?_, hfd (s.descriptors ++ [⟨none, 1⟩])⟩
          simp only [HandleRead, hcb, if_neg Bool.false_ne_true]
      | true =>
          have hlt := hb rfl hcb
          obtain ⟨s', hok, hinv⟩ :=
            inv_runInLoop (inv_record hi (by omega)) 0 (by simp)
          refine ⟨s', ?_, hinv⟩
          simp only [HandleRead, hcb, if_true, EstablishConnection]
          rw [require_bind hi.alive]
          exact hok
  | EMFILE accepted =>
      cases accepted with
      | false => exact ⟨s, rfl, hi⟩
      | true => exact ⟨_, rfl, hfd _⟩
  | failed => exact ⟨s, rfl, hi⟩

theorem inv_handler (hi : Inv start s none) {i c : Nat}
    (hact : c ∈ s.activeChannels i) :
    Inv start (s.logged (.handler c)) none := by
  have hc : c < s.numConns := by
    by_contra hge
    exact (hi.unborn c (Nat.not_lt.1 hge)).active i hact
  have ha := hi.acct c hc
  have hself : s.logged (.handler c)
      = s.lived s.registry c (s.conns c) (.handler c) := by
    unfold lived
    rw [Function.update_eq_self]
    rfl
  rw [hself]
  refine hi.life hc rfl hi.registry rfl rfl (fun _ _ => Iff.rfl)
    (fun _ _ _ => Iff.rfl) ?_ (by simp)
    (fun _ => mem_of_count_pos (ha.active i hact).2) (by simp)
  refine ha.frame (fun x hx _ => ?_) (fun _ _ _ => rfl) lived_conn Iff.rfl
    ha.active
  rw [lived_count, if_neg (fun heq => hx c heq.symm), Nat.add_zero]

theorem inv_shutdown (hi : Inv start s none) {c : Nat}
    (hst : (s.conns c).state = .kConnected) :
    Inv start (s.setConn c { s.conns c with state := .kDisconnecting })
      none := by
  have hother : ∀ c', c' ≠ c →
      (s.setConn c { s.conns c with state := .kDisconnecting }).conns c'
        = s.conns c' := fun c' hne => Function.update_of_ne hne _ _
  have hself :
      (s.setConn c { s.conns c with state := .kDisconnecting }).conns c
        = { s.conns c with state := .kDisconnecting } :=
    Function.update_self ..
  refine ⟨hi.registry, hi.counter, hi.ids, hi.queue, hi.thread,
    fun c' hc' => ?_, fun c' hc' => ?_, hi.calm, hi.first, hi.after, hi.alive⟩
  · have ha := hi.acct c' hc'
    by_cases hcc : c' = c
    · subst hcc
      have hcon := ha.connecting
      have hdis := ha.disconnected
      rw [hst] at hcon hdis
      exact
        { est := by rw [hself]; exact ha.est
          rem := ha.rem
          des := by rw [hself]; exact ha.des
          once := ha.once
          opened := ha.opened
          estAt := by rw [hself]; exact ha.estAt
          remAt := ha.remAt
          desAt := by rw [hself]; exact ha.desAt
          connecting := by
            rw [hself]
            exact iff_of_false (by simp) (fun hz => by simpa using hcon.2 hz)
          disconnected := by
            rw [hself]
            exact iff_of_false (by simp) (fun hz => by simpa using hdis.2 hz)
          live := ha.live
          watched := by rw [hself]; exact ha.watched
          active := by rw [hself]; exact ha.active }
    · exact ha.frame (fun _ _ _ => rfl) (fun _ _ _ => rfl) (hother c' hcc)
        Iff.rfl ha.active
  · have hu := hi.unborn c' hc'
    exact ⟨hu.log, hu.due, hu.active⟩

/-- A step within the limits keeps the account, or is a `Loop` that fails
its own assertion. -/
theorem inv_step (hi : Inv start s none) {a : ServerAct} (hC : Within s a) :
    (∃ s', s.step a = .ok s' ∧ Inv start s' none)
      ∨ s.step a = .error (.worker .notLooping) := by
  cases a with
  | HandleRead r =>
      simp only [step]
      split
      next hen =>
        refine .inl (inv_HandleRead (inv_atChannel hi 0 none) r
          (fun hr hcb => ?_))
        subst hr
        apply hC.few
        simp only [Bool.and_eq_true] at hen
        change s.newConnCb = true at hcb
        simp only [names, hen.1, hen.2, hcb, Bool.and_self]
      next => exact .inl ⟨s, rfl, hi⟩
  | otherServer =>
      refine .inl ⟨_, rfl, hi.outside ?_ (Nat.le_succ _)⟩
      rw [hi.counter, BitVec.add_assoc, BitVec.ofNat_add]
      rfl
  | loop i a =>
      simp only [step]
      split
      next => exact .inl ⟨s, rfl, hi⟩
      next a' ha =>
        cases hw : (s.loops i).step a' with
        | error e =>
            cases e
            exact .inr rfl
        | ok w => exact .inl ⟨_, rfl, inv_loop hi ha hw⟩
  | pollReturn i active =>
      cases hpc : (s.loops i).canLoop .polling with
      | true => exact .inl (inv_pollReturn hi hpc active)
      | false =>
          refine .inl ⟨s, ?_, hi⟩
          simp only [step, hpc, if_neg Bool.false_ne_true]
  | handler i c =>
      simp only [step]
      split
      next hen =>
        simp only [Bool.and_eq_true, decide_eq_true_eq] at hen
        exact .inl ⟨_, rfl, inv_handler (inv_atChannel hi i (some c)) hen.2⟩
      next => exact .inl ⟨s, rfl, hi⟩
  | handleClose i c =>
      simp only [step]
      split
      next hen =>
        have hfirst := hC.once c (by simp only [closes, if_pos hen])
        simp only [Bool.and_eq_true, decide_eq_true_eq] at hen
        exact .inl (inv_handleClose (inv_atChannel hi i (some c)) hen.2 hfirst)
      next => exact .inl ⟨s, rfl, hi⟩
  | call i =>
      simp only [step]
      split
      next hpc =>
        split
        next => exact .inl ⟨s, rfl, hi⟩
        next f rest hf =>
          refine .inl (inv_apply (inv_take hi hpc hf) (fun _ _ => ?_))
          -- the loop is in `doPendingFunctors`
          show ((Function.update s.loops i _ i).pc == LoopPc.handling) = false
          rw [Function.update_self, Worker.pc_callFunctor hf]
          rfl
      next => exact .inl ⟨s, rfl, hi⟩
  | shutdown c =>
      simp only [step]
      split
      next hst => exact .inl ⟨_, rfl, inv_shutdown hi hst⟩
      next => exact .inl ⟨s, rfl, hi⟩
  | destroyConn c =>
      simp only [step]
      split
      next =>
        exact .inl ⟨_, rfl, hi.outside (D := s.descriptors) hi.counter le_rfl⟩
      next => exact .inl ⟨s, rfl, hi⟩
  | destroyServer => exact absurd rfl hC.stays

-- ============================================================= the runs

/-- The life of every connection. -/
structure Lifecycle (s : ServerLoops) : Prop where
  /-- `ConnectionEstablished` has run once, or waits on the connection's
  loop to run once -/
  establishedOnce : ∀ c, c < s.numConns → s.log.count (.established c)
    + (s.loops (s.conns c).loop).queue.waiting.count
      (.ConnectionEstablished c) = 1
  /-- and nothing else of a connection runs before it -/
  establishedFirst : AtEach (fun pre o _ => ∀ c,
    o = .handler c ∨ o = .closed c → .established c ∈ pre) s.log
  /-- `ConnectionDestroyed` has run at most once -/
  destroyedOnce : ∀ c, s.log.count (.destroyed c false)
    + s.log.count (.destroyed c true) ≤ 1
  /-- after `handleClose`, and not during event handling -/
  destroyedAfter : AtEach (fun pre o _ => ∀ c b, o = .destroyed c b →
    .closed c ∈ pre ∧ b = false) s.log
  /-- `connections_` has a connection from `EstablishConnection` to
  `RemoveConnectionInLoop` -/
  contained : ∀ c, c < s.numConns →
    (Finmap.lookup (s.registry.reg.nameOf c) s.registry.reg.connections
      = some c ↔ .removed c ∉ s.log)
  /-- and no other entries -/
  only : ∀ name c,
    Finmap.lookup name s.registry.reg.connections = some c →
      c < s.numConns ∧ s.registry.reg.nameOf c = name
  /-- which erases an entry once, and the connection's own -/
  removedOnce : ∀ c, s.log.count (.removed c) ≤ 1
  own : ∀ e ∈ s.registry.erased, e.2 = some e.1

/-- The account, read back. -/
theorem Inv.lifecycle (hi : Inv start s none) : Lifecycle s where
  establishedOnce := fun c hc => (hi.acct c hc).est
  establishedFirst := hi.first
  destroyedOnce := by
    intro c
    have htrue := List.count_eq_zero.2 (hi.calm c)
    by_cases hc : c < s.numConns
    · have ha := hi.acct c hc
      have h1 := ha.rem
      have h2 := ha.des
      have h3 := ha.once
      omega
    · have hzero : s.log.count (.destroyed c false) = 0 :=
        List.count_eq_zero.2 fun hmem =>
          (hi.unborn c (Nat.not_lt.1 hc)).log _ hmem rfl
      omega
  destroyedAfter := by
    intro pre o post hl c b ho
    refine ⟨hi.after pre o post hl c b ho, ?_⟩
    cases b with
    | false => rfl
    | true =>
        refine absurd ?_ (hi.calm c)
        rw [hl, ho]
        exact List.mem_append_right _ List.mem_cons_self
  contained := by
    intro c hc
    have ha := hi.acct c hc
    rw [← List.count_eq_zero, ← ha.live]
    constructor
    · intro hlook
      exact (hi.registry.faithful.only _ _ hlook).1
    · intro hlive
      exact hi.registry.faithful.mapped c hlive
  only := by
    intro name c hlook
    obtain ⟨hlive, hname⟩ := hi.registry.faithful.only name c hlook
    exact ⟨hi.registry.made c hlive, hname⟩
  removedOnce := by
    intro c
    by_cases hc : c < s.numConns
    · have ha := hi.acct c hc
      have h1 := ha.rem
      have h2 := ha.once
      omega
    · have hzero : s.log.count (.removed c) = 0 :=
        List.count_eq_zero.2 fun hmem =>
          (hi.unborn c (Nat.not_lt.1 hc)).log _ hmem rfl
      omega
  own := hi.registry.faithful.own

/-- Over every interleaving of the acceptor's loop with any number of I/O
loops, while the server is alive, fewer than `2^32` connections have been
named and no connection enters `handleClose` twice, every connection goes
through its life in order, and no assertion of the server or of a
connection fails on the way. -/
theorem lifecycle_run (listenAddr : Endpoint) (name : List Char)
    (nextConnId : BitVec 32) (numThreads : Nat) (newConnCb : Bool)
    (acts : List ServerAct)
    (hC : Along step Within
      (create listenAddr name nextConnId numThreads newConnCb) acts) :
    (∀ s, run step (create listenAddr name nextConnId numThreads newConnCb)
        acts = .ok s → Lifecycle s)
      ∧ ∀ e, run step
          (create listenAddr name nextConnId numThreads newConnCb) acts
            = .error e → e = .worker .notLooping := by
  have hstart := inv_create listenAddr name nextConnId numThreads newConnCb
  have hstep : ∀ s a s', Inv nextConnId s none → Within s a →
      s.step a = .ok s' → Inv nextConnId s' none := by
    intro s a s' hi hw hok
    rcases inv_step hi hw with ⟨t, ht, hinv⟩ | herr
    · rw [ht] at hok
      cases hok
      exact hinv
    · rw [herr] at hok
      cases hok
  constructor
  · intro s hrun
    exact (run_inv (I := fun s => Inv nextConnId s none) hstep hstart hC
      hrun).lifecycle
  · intro e hrun
    refine run_error (I := fun s => Inv nextConnId s none)
      (Q := fun e => e = .worker .notLooping) hstep
      (fun s a e hi hw herr => ?_) hstart hC hrun
    rcases inv_step hi hw with ⟨t, ht, -⟩ | herr'
    · rw [ht] at herr
      cases herr
    · rw [herr'] at herr
      cases herr
      rfl

/-- One connection on the loop of a pool of one thread, from the accept to
`ConnectionDestroyed`. -/
def oneLife : List ServerAct :=
  [.loop 0 .Loop, .loop 0 .test, .pollReturn 0 [], .HandleRead .connfd,
    .loop 1 .Loop, .loop 1 .test, .pollReturn 1 [], .loop 1 .endHandling,
    .loop 1 .swap, .call 1, .loop 1 .ret, .loop 1 .endPending,
    .loop 1 .test, .pollReturn 1 [0], .handler 1 0, .handleClose 1 0,
    .loop 0 .endHandling, .loop 0 .swap, .call 0, .loop 0 .ret,
    .loop 1 .endHandling, .loop 1 .swap, .call 1]

theorem lifecycle_oneLife :
    ∃ s, run step (create ⟨0, 8080⟩ "server".toList 0 1 true) oneLife = .ok s
      ∧ s.log = [.established 0, .handler 0, .closed 0, .removed 0,
        .destroyed 0 false]
      ∧ Lifecycle s := by
  obtain ⟨s, hrun, hlog⟩ := map_ok_inv
    (show (run step (create ⟨0, 8080⟩ "server".toList 0 1 true)
        oneLife).map (fun s => s.log)
      = .ok [.established 0, .handler 0, .closed 0, .removed 0,
        .destroyed 0 false] by decide +kernel)
  exact ⟨s, hrun, hlog, (lifecycle_run _ _ _ _ _ oneLife
    (along_of_check (by decide +kernel))).1 s hrun⟩

end ServerLoops

end Cobra
