/-
The descriptors a server accepts, over every interleaving of its loops,
the server's own end included.

`handleClose` leaves the descriptor to the destructor, and
`~TcpConnection` does not close it; `Channel` does not own it either. So
a connection's descriptor is never closed, and the account of open
descriptors against live objects is right exactly as long as no object
has been destroyed (`conserved_iff_keepsObjects`). The descriptors that
the acceptor closes itself, without a callback and after `EMFILE`, are
closed once and at once.
-/
import Cobra.Proofs.ServerLoops

namespace Cobra.ServerLoops

open Machine

variable {s s' : ServerLoops}

-- ============================================== what leaves them alone

/-- Descriptors, connections and dead objects are the same. -/
structure SameObjects (s s' : ServerLoops) : Prop where
  descriptors : s'.descriptors = s.descriptors
  ids : s'.registry.reg.ids = s.registry.reg.ids
  dead : s'.dead = s.dead

theorem SameObjects.trans {t : ServerLoops} (h : SameObjects s s')
    (h' : SameObjects s' t) : SameObjects s t where
  descriptors := h'.descriptors.trans h.descriptors
  ids := h'.ids.trans h.ids
  dead := h'.dead.trans h.dead

theorem same_ConnectionEstablished {c : Nat}
    (h : s.ConnectionEstablished c = .ok s') : SameObjects s s' := by
  obtain ⟨-, -, h⟩ := bind_ok_inv h
  cases h
  exact ⟨rfl, rfl, rfl⟩

theorem same_ConnectionDestroyed {c : Nat}
    (h : s.ConnectionDestroyed c = .ok s') : SameObjects s s' := by
  obtain ⟨-, -, h⟩ := bind_ok_inv h
  cases h
  exact ⟨rfl, rfl, rfl⟩

theorem same_RemoveConnectionInLoop {c : Nat}
    (h : s.RemoveConnectionInLoop c = .ok s') : SameObjects s s' := by
  obtain ⟨-, -, h⟩ := bind_ok_inv h
  obtain ⟨r, hr, h⟩ := bind_ok_inv h
  cases h
  refine ⟨rfl, ?_, rfl⟩
  have hstep := mapError_ok_inv hr
  simp only [RegistryRun.step] at hstep
  split at hstep
  · obtain ⟨reg, hreg, hstep⟩ := bind_ok_inv hstep
    cases hstep
    obtain ⟨-, -, hreg⟩ := bind_ok_inv hreg
    cases hreg
    rfl
  · cases hstep
    rfl

theorem same_apply {f : ServerFunctor} (h : s.apply f = .ok s') :
    SameObjects s s' := by
  cases f with
  | ConnectionEstablished c => exact same_ConnectionEstablished h
  | RemoveConnectionInLoop c => exact same_RemoveConnectionInLoop h
  | ConnectionDestroyed c => exact same_ConnectionDestroyed h
  | user k =>
      cases h
      exact ⟨rfl, rfl, rfl⟩

theorem same_runInLoop {i t : Nat} {f : ServerFunctor}
    (h : s.runInLoop i t f = .ok s') : SameObjects s s' := by
  unfold runInLoop at h
  split at h
  · exact same_apply h
  · cases h
    exact ⟨rfl, rfl, rfl⟩

theorem same_handleClose {i c : Nat} (h : s.handleClose i c = .ok s') :
    SameObjects s s' := by
  obtain ⟨-, -, h⟩ := bind_ok_inv h
  obtain ⟨-, -, h⟩ := bind_ok_inv h
  obtain ⟨hd, hi, hx⟩ := same_runInLoop h
  exact ⟨hd, hi, hx⟩

/-- The loop of the destructor over `connections_`. -/
theorem same_foldlM {f : ServerLoops → Nat → Except ServerLoopsAssert ServerLoops}
    (hf : ∀ s c s', f s c = .ok s' → SameObjects s s') :
    ∀ {l : List Nat} {s s' : ServerLoops}, l.foldlM f s = .ok s' →
      SameObjects s s' := by
  intro l
  induction l with
  | nil =>
      intro s s' h
      cases h
      exact ⟨rfl, rfl, rfl⟩
  | cons c l ih =>
      intro s s' h
      rw [List.foldlM_cons] at h
      obtain ⟨s₁, h₁, h⟩ := bind_ok_inv h
      exact (hf s c s₁ h₁).trans (ih h)

theorem same_destroyServer (h : s.destroyServer = .ok s') :
    SameObjects s s' := by
  obtain ⟨s₁, h₁, h⟩ := bind_ok_inv h
  cases h
  obtain ⟨hd, hi, hx⟩ := same_foldlM (fun _ _ _ => same_runInLoop) h₁
  exact ⟨hd, hi, hx⟩

-- ======================================================== what a step does

/-- Only an accept and the end of an object are about objects. -/
theorem same_step {a : ServerAct} (hr : ∀ r, a ≠ .HandleRead r)
    (hd : ∀ c, a ≠ .destroyConn c) (h : s.step a = .ok s') :
    SameObjects s s' := by
  cases a with
  | HandleRead r => exact absurd rfl (hr r)
  | otherServer =>
      cases h
      exact ⟨rfl, rfl, rfl⟩
  | loop i a =>
      simp only [step] at h
      split at h
      · cases h
        exact ⟨rfl, rfl, rfl⟩
      · obtain ⟨w, -, hrest⟩ := bind_ok_inv h
        cases hrest
        exact ⟨rfl, rfl, rfl⟩
  | pollReturn i active =>
      simp only [step] at h
      split at h
      · cases h
        exact ⟨rfl, rfl, rfl⟩
      · cases h
        exact ⟨rfl, rfl, rfl⟩
  | handler i c =>
      simp only [step] at h
      split at h
      · cases h
        exact ⟨rfl, rfl, rfl⟩
      · cases h
        exact ⟨rfl, rfl, rfl⟩
  | handleClose i c =>
      simp only [step] at h
      split at h
      · obtain ⟨hd, hi, hx⟩ := same_handleClose h
        exact ⟨hd, hi, hx⟩
      · cases h
        exact ⟨rfl, rfl, rfl⟩
  | call i =>
      simp only [step] at h
      split at h
      · split at h
        · cases h
          exact ⟨rfl, rfl, rfl⟩
        · obtain ⟨hd, hi, hx⟩ := same_apply h
          exact ⟨hd, hi, hx⟩
      · cases h
        exact ⟨rfl, rfl, rfl⟩
  | shutdown c =>
      simp only [step] at h
      split at h
      · cases h
        exact ⟨rfl, rfl, rfl⟩
      · cases h
        exact ⟨rfl, rfl, rfl⟩
  | destroyConn c => exact absurd rfl (hd c)
  | destroyServer =>
      simp only [step] at h
      split at h
      · exact same_destroyServer h
      · cases h
        exact ⟨rfl, rfl, rfl⟩

/-- An accept makes a connection, or closes the descriptor, or fails. -/
theorem HandleRead_objects {r : AcceptResult} (h : s.HandleRead r = .ok s') :
    (s'.descriptors = s.descriptors ++ [⟨some s.numConns, 0⟩]
        ∧ s'.numConns = s.numConns + 1 ∧ s'.dead = s.dead)
    ∨ (s'.descriptors = s.descriptors ++ [⟨none, 1⟩]
        ∧ s'.numConns = s.numConns ∧ s'.dead = s.dead)
    ∨ s' = s := by
  cases r with
  | connfd =>
      simp only [HandleRead] at h
      split at h
      · obtain ⟨u, -, hrest⟩ := bind_ok_inv h
        obtain ⟨hd, hi, hx⟩ := same_runInLoop hrest
        refine .inl ⟨hd, ?_, hx⟩
        show s'.registry.reg.ids.length = _
        rw [hi]
        exact List.length_append
      · cases h
        exact .inr (.inl ⟨rfl, rfl, rfl⟩)
  | EMFILE accepted =>
      cases accepted with
      | true =>
          cases h
          exact .inr (.inl ⟨rfl, rfl, rfl⟩)
      | false =>
          cases h
          exact .inr (.inr rfl)
  | failed =>
      cases h
      exact .inr (.inr rfl)

/-- A step makes a connection, or accepts a descriptor and closes it, or
destroys an object, or leaves all of them alone. -/
theorem step_objects {a : ServerAct} (h : s.step a = .ok s') :
    (s'.descriptors = s.descriptors ++ [⟨some s.numConns, 0⟩]
        ∧ s'.numConns = s.numConns + 1 ∧ s'.dead = s.dead)
    ∨ (s'.descriptors = s.descriptors ++ [⟨none, 1⟩]
        ∧ s'.numConns = s.numConns ∧ s'.dead = s.dead)
    ∨ (∃ c, a = .destroyConn c ∧ c < s.numConns ∧ c ∉ s.dead
        ∧ s' = { s with dead := s.dead ++ [c] })
    ∨ SameObjects s s' := by
  cases a with
  | HandleRead r =>
      simp only [step] at h
      split at h
      · rcases HandleRead_objects h with hmade | hclosed | rfl
        · exact .inl hmade
        · exact .inr (.inl hclosed)
        · exact .inr (.inr (.inr ⟨rfl, rfl, rfl⟩))
      · cases h
        exact .inr (.inr (.inr ⟨rfl, rfl, rfl⟩))
  | destroyConn c =>
      simp only [step] at h
      split at h
      next hen =>
        cases h
        simp only [Bool.and_eq_true, decide_eq_true_eq] at hen
        exact .inr (.inr (.inl ⟨c, rfl, hen.1.1, hen.2, rfl⟩))
      next =>
        cases h
        exact .inr (.inr (.inr ⟨rfl, rfl, rfl⟩))
  | _ => exact .inr (.inr (.inr (same_step (by simp) (by simp) h)))

-- ======================================================== the account

/-- The `TcpConnection` objects that exist. -/
def liveConns (s : ServerLoops) : List Nat :=
  (List.range s.numConns).filter fun c => decide (c ∉ s.dead)

/-- The descriptors that are open. -/
def openDescriptors (s : ServerLoops) : List Descriptor :=
  s.descriptors.filter fun d => d.closes == 0

/-- Every descriptor is closed once and in time: at once when no
connection was made with it, and else after the channel has been removed
from the poller and before the object is gone. -/
structure Conserved (s : ServerLoops) : Prop where
  unowned : ∀ d ∈ s.descriptors, d.owner = none → d.closes = 1
  once : ∀ d ∈ s.descriptors, d.closes ≤ 1
  notEarly : ∀ d ∈ s.descriptors, ∀ c, d.owner = some c → d.closes = 1 →
    ∃ eventHandling, .destroyed c eventHandling ∈ s.log
  notLate : ∀ d ∈ s.descriptors, ∀ c, d.owner = some c → c ∈ s.dead →
    d.closes = 1
  balance : s.openDescriptors.length = s.liveConns.length

/-- What the code does with them: a descriptor without a connection is
closed once, and one with a connection never. -/
structure DescInv (s : ServerLoops) : Prop where
  unowned : ∀ d ∈ s.descriptors, d.owner = none → d.closes = 1
  owned : ∀ d ∈ s.descriptors, ∀ c, d.owner = some c → d.closes = 0
  owners : s.descriptors.filterMap Descriptor.owner = List.range s.numConns
  dead : ∀ c ∈ s.dead, c < s.numConns

theorem descInv_create (listenAddr : Endpoint) (name : List Char)
    (nextConnId : BitVec 32) (numThreads : Nat) (newConnCb : Bool) :
    DescInv (create listenAddr name nextConnId numThreads newConnCb) where
  unowned := fun _ hd => absurd hd List.not_mem_nil
  owned := fun _ hd => absurd hd List.not_mem_nil
  owners := rfl
  dead := fun _ hc => absurd hc List.not_mem_nil

theorem SameObjects.numConns (h : SameObjects s s') :
    s'.numConns = s.numConns :=
  congrArg List.length h.ids

theorem descInv_step {a : ServerAct} (hs : DescInv s)
    (h : s.step a = .ok s') : DescInv s' := by
  rcases step_objects h with ⟨hd, hn, hx⟩ | ⟨hd, hn, hx⟩
    | ⟨c, -, hc, -, rfl⟩ | hsame
  · -- a connection is made
    constructor
    · intro d hmem hnone
      rw [hd, List.mem_append, List.mem_singleton] at hmem
      rcases hmem with hmem | rfl
      · exact hs.unowned d hmem hnone
      · cases hnone
    · intro d hmem c hc
      rw [hd, List.mem_append, List.mem_singleton] at hmem
      rcases hmem with hmem | rfl
      · exact hs.owned d hmem c hc
      · rfl
    · rw [hd, List.filterMap_append, hs.owners, hn, List.range_succ]
      rfl
    · intro c hc
      rw [hx] at hc
      have := hs.dead c hc
      omega
  · -- a descriptor is accepted and closed
    constructor
    · intro d hmem hnone
      rw [hd, List.mem_append, List.mem_singleton] at hmem
      rcases hmem with hmem | rfl
      · exact hs.unowned d hmem hnone
      · rfl
    · intro d hmem c hc
      rw [hd, List.mem_append, List.mem_singleton] at hmem
      rcases hmem with hmem | rfl
      · exact hs.owned d hmem c hc
      · cases hc
    · rw [hd, List.filterMap_append, hs.owners, hn]
      exact List.append_nil _
    · rw [hx, hn]
      exact hs.dead
  · -- an object is destroyed
    refine ⟨hs.unowned, hs.owned, hs.owners, ?_⟩
    intro c' hc'
    rcases List.mem_append.1 hc' with hc' | hc'
    · exact hs.dead c' hc'
    · rw [List.mem_singleton.1 hc']
      exact hc
  · refine ⟨?_, ?_, ?_, ?_⟩
    · rw [hsame.descriptors]
      exact hs.unowned
    · rw [hsame.descriptors]
      exact hs.owned
    · rw [hsame.descriptors, hsame.numConns]
      exact hs.owners
    · rw [hsame.dead, hsame.numConns]
      exact hs.dead

/-- As many descriptors are open as have a connection. -/
theorem open_length : ∀ {l : List Descriptor},
    (∀ d ∈ l, d.owner = none → d.closes = 1) →
    (∀ d ∈ l, ∀ c, d.owner = some c → d.closes = 0) →
    (l.filter fun d => d.closes == 0).length
      = (l.filterMap Descriptor.owner).length := by
  intro l
  induction l with
  | nil =>
      intro _ _
      rfl
  | cons d l ih =>
      intro hun how
      have ih' := ih (fun d hd => hun d (List.mem_cons_of_mem _ hd))
        (fun d hd => how d (List.mem_cons_of_mem _ hd))
      cases ho : d.owner with
      | none =>
          have hd := hun d List.mem_cons_self ho
          simp [ho, hd, ih']
      | some c =>
          have hd := how d List.mem_cons_self c ho
          simp [ho, hd, ih']

theorem DescInv.numOpen (hs : DescInv s) :
    s.openDescriptors.length = s.numConns := by
  unfold openDescriptors
  rw [open_length hs.unowned hs.owned, hs.owners, List.length_range]

theorem DescInv.conserved_iff (hs : DescInv s) :
    Conserved s ↔ s.dead = [] := by
  constructor
  · intro h
    refine List.eq_nil_iff_forall_not_mem.2 fun c hc => ?_
    -- the descriptor of a destroyed object is still open
    have hmem : c ∈ s.descriptors.filterMap Descriptor.owner := by
      rw [hs.owners]
      exact List.mem_range.2 (hs.dead c hc)
    obtain ⟨d, hd, hown⟩ := List.mem_filterMap.1 hmem
    have h0 := hs.owned d hd c hown
    have h1 := h.notLate d hd c hown hc
    omega
  · intro hdead
    constructor
    · exact hs.unowned
    · intro d hd
      cases ho : d.owner with
      | none => exact (hs.unowned d hd ho).le
      | some c =>
          rw [hs.owned d hd c ho]
          exact Nat.zero_le 1
    · intro d hd c ho h1
      rw [hs.owned d hd c ho] at h1
      cases h1
    · intro d hd c _ hc
      rw [hdead] at hc
      cases hc
    · rw [hs.numOpen]
      simp [liveConns, hdead]

-- ======================================================== the runs

/-- The step is the end of a `TcpConnection` object. -/
def endsObject (s : ServerLoops) : ServerAct → Bool
  | .destroyConn c =>
      decide (c < s.numConns) && !s.referenced c && decide (c ∉ s.dead)
  | _ => false

def KeepsObjects (s : ServerLoops) (a : ServerAct) : Prop :=
  s.endsObject a = false

instance (s : ServerLoops) (a : ServerAct) : Decidable (s.KeepsObjects a) :=
  inferInstanceAs (Decidable (_ = false))

theorem dead_of_keeps {a : ServerAct} (hC : s.KeepsObjects a)
    (h : s.step a = .ok s') : s'.dead = s.dead := by
  rcases step_objects h with ⟨-, -, hx⟩ | ⟨-, -, hx⟩
    | ⟨c, rfl, -, -, -⟩ | hsame
  · exact hx
  · exact hx
  · simp only [KeepsObjects, endsObject] at hC
    simp only [step, hC] at h
    cases h
    rfl
  · exact hsame.dead

theorem dead_of_not_keeps {a : ServerAct} (hC : ¬ s.KeepsObjects a)
    (h : s.step a = .ok s') : s'.dead ≠ [] := by
  have hend : s.endsObject a = true := Bool.eq_true_of_not_eq_false hC
  cases a with
  | destroyConn c =>
      simp only [endsObject] at hend
      simp only [step, hend] at h
      cases h
      simp
  | _ => cases hend

theorem dead_mono {a : ServerAct} (hd : s.dead ≠ [])
    (h : s.step a = .ok s') : s'.dead ≠ [] := by
  rcases step_objects h with ⟨-, -, hx⟩ | ⟨-, -, hx⟩
    | ⟨c, -, -, -, rfl⟩ | hsame
  · rw [hx]
    exact hd
  · rw [hx]
    exact hd
  · simp
  · rw [hsame.dead]
    exact hd

/-- In every run the account is right exactly when no `TcpConnection`
object has come to its end: the destructor leaves the descriptor open. -/
theorem conserved_iff_keepsObjects (listenAddr : Endpoint) (name : List Char)
    (nextConnId : BitVec 32) (numThreads : Nat) (newConnCb : Bool)
    (acts : List ServerAct) (s : ServerLoops)
    (hrun : run step
      (create listenAddr name nextConnId numThreads newConnCb) acts = .ok s) :
    Conserved s ↔ Along step KeepsObjects
      (create listenAddr name nextConnId numThreads newConnCb) acts := by
  have hinit := descInv_create listenAddr name nextConnId numThreads newConnCb
  have hinv : DescInv s :=
    run_inv_all (I := DescInv) (fun _ _ _ hs h => descInv_step hs h) hinit hrun
  rw [hinv.conserved_iff]
  exact run_exact_of_ok (I := fun s => s.dead = []) (J := fun s => s.dead ≠ [])
    (fun _ _ _ hs hC h => (dead_of_keeps hC h).trans hs)
    (fun _ _ _ _ hC h => dead_of_not_keeps hC h)
    (fun _ _ _ hs h => dead_mono hs h) (fun _ hJ hI => hJ hI) rfl hrun

/-- The whole life of one connection, to the end of its object. -/
def oneLifeToEnd : List ServerAct :=
  oneLife ++ [.loop 0 .endPending, .loop 1 .ret, .loop 1 .endPending,
    .destroyConn 0]

theorem conserved_before_end :
    ∃ s, run step (create ⟨0, 8080⟩ "server".toList 0 1 true) oneLife = .ok s
      ∧ s.descriptors = [⟨some 0, 0⟩] ∧ Conserved s := by
  obtain ⟨s, hrun, hdesc⟩ := map_ok_inv
    (show (run step (create ⟨0, 8080⟩ "server".toList 0 1 true)
        oneLife).map (fun s => s.descriptors) = .ok [⟨some 0, 0⟩]
      by decide +kernel)
  refine ⟨s, hrun, hdesc, (conserved_iff_keepsObjects _ _ _ _ _ oneLife s
    hrun).2 (along_of_check (by decide +kernel))⟩

/-- The object is gone and its descriptor is open. -/
theorem descriptor_leaks :
    ∃ s, run step (create ⟨0, 8080⟩ "server".toList 0 1 true) oneLifeToEnd
        = .ok s
      ∧ s.descriptors = [⟨some 0, 0⟩] ∧ s.dead = [0] ∧ ¬ Conserved s := by
  obtain ⟨s, hrun, hview⟩ := map_ok_inv
    (show (run step (create ⟨0, 8080⟩ "server".toList 0 1 true)
        oneLifeToEnd).map (fun s => (s.descriptors, s.dead))
      = .ok ([⟨some 0, 0⟩], [0]) by decide +kernel)
  have hdesc : s.descriptors = [⟨some 0, 0⟩] := congrArg Prod.fst hview
  have hdead : s.dead = [0] := congrArg Prod.snd hview
  refine ⟨s, hrun, hdesc, hdead, fun h => ?_⟩
  have hmem : (⟨some 0, 0⟩ : Descriptor) ∈ s.descriptors := by
    rw [hdesc]
    exact List.mem_singleton_self _
  have hgone : 0 ∈ s.dead := by
    rw [hdead]
    exact List.mem_singleton_self _
  have h1 := h.notLate ⟨some 0, 0⟩ hmem 0 rfl hgone
  cases h1

end Cobra.ServerLoops
