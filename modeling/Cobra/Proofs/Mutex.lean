/-
Critical sections under a `MutexLock` are atomic, and `holder_` is exact.

# The two grains

Below, the threads go one access at a time (`MutexLock.step`). Above, a
section is one step of `Sections`. A section happens when its signal is
given, or when it parks: until then it has changed nothing that another
thread can see, because every other one is outside of the lock.

# The relation

`Sim` has what the threads' places say about `owner`, `holder_` and the
waiters, and how far the value below is ahead of the one above: by the
statements that the thread in the lock has done, and by nothing when no
thread is in the middle of its statements. A thread that has come out of
`pthread_cond_wait` counts as a waiter above until its section happens
(`resuming`), so that above it takes the mutex and runs its section in
one step.

Three steps move the machine above: the end of a section (`sim_commit`),
the parking (`sim_park`), and a wakeup for no reason. The others are
silent (`Sim.moved`, `Sim.worked`).

# What the threads get of it

A class proves its invariant of the sections. `Sim.exclusive` is what the
lock adds, `Sim.data_cases` takes the invariant into the middle of a
section, and `Sim.comesBack` turns a condition that is served into a
thread on its way.
-/
import Cobra.Mutex

namespace Cobra

open Machine Monitor

variable {σ κ ε τ Op : Type}

namespace LockPc

/-- The thread has the mutex. -/
def owns : LockPc Op → Bool
  | .locked _ | .testing _ _ | .waiting _ _ | .unassigned _ _ | .back _
  | .body _ _ _ | .unlocking | .releasing => true
  | .outside | .locking _ | .parked _ | .awake _ => false

/-- `holder_` is the thread's. -/
def holds : LockPc Op → Bool
  | .testing _ _ | .waiting _ _ | .body _ _ _ | .unlocking => true
  | .outside | .locking _ | .locked _ | .unassigned _ _ | .parked _ | .awake _
  | .back _ | .releasing => false

/-- `holder_` is only ever that of the thread that has the mutex. -/
theorem owns_of_holds {q : LockPc Op} (h : q.holds = true) : q.owns = true := by
  cases q with
  | testing | waiting | body | unlocking => rfl
  | outside | locking | locked | unassigned | parked | awake | back
  | releasing => cases h

/-- The call that has come out of its wait and is not over. -/
def resuming : LockPc Op → Option Op
  | .awake o | .back o => some o
  | .testing o again | .waiting o again | .unassigned o again
  | .body o again _ => if again then some o else none
  | .outside | .locking _ | .locked _ | .parked _ | .unlocking
  | .releasing => none

/-- A thread that is on its way to park was not ready. -/
def Unready (sec : Op → Section σ κ ε) (d : σ) : LockPc Op → Prop
  | .waiting o _ | .unassigned o _ => (sec o).ready d = false
  | .outside | .locking _ | .locked _ | .testing _ _ | .parked _ | .awake _
  | .back _ | .body _ _ _ | .unlocking | .releasing => True

/-- A thread that is in the middle of its statements was ready, and has done
so many of them. -/
def Inside (sec : Op → Section σ κ ε) (above below : σ) : LockPc Op → Prop
  | .body o _ n => (sec o).ready above = true
      ∧ statements ((sec o).body.take n) above = .ok below
  | .outside | .locking _ | .locked _ | .testing _ _ | .waiting _ _
  | .unassigned _ _ | .parked _ | .awake _ | .back _ | .unlocking
  | .releasing => True

end LockPc

namespace MutexLock

variable {sec : Op → Section σ κ ε}
  {s : MutexLock σ κ τ Op} {m : Sections σ κ τ Op} {t : τ} {p : LockPc Op}

/-- The threads below and the sections above. -/
structure Sim (sec : Op → Section σ κ ε) (s : MutexLock σ κ τ Op)
    (m : Sections σ κ τ Op) : Prop where
  owner : ∀ t, (s.pc t).owns = true ↔ s.owner = some t
  holder : ∀ t, (s.pc t).holds = true ↔ s.holder = some t
  parked : ∀ c t o,
    (t, o) ∈ s.parked c ↔ s.pc t = .parked o ∧ (sec o).cond = c
  nodup : ∀ c, (s.parked c).Nodup
  unready : ∀ t, (s.pc t).Unready sec s.data
  inside : ∀ t, (s.pc t).Inside sec m.data s.data
  settled : (∀ t o again n, s.pc t ≠ .body o again n) → m.data = s.data
  conds : ∀ c, (m.conds c).parked = s.parked c
  returning : ∀ c t o, (t, o) ∈ (m.conds c).returning
    ↔ (s.pc t).resuming = some o ∧ (sec o).cond = c
  returningNodup : ∀ c, (m.conds c).returning.Nodup

theorem sim_init (d : σ) : Sim sec (init d : MutexLock σ κ τ Op) (.init d) where
  owner := fun t => by simp [init, LockPc.owns]
  holder := fun t => by simp [init, LockPc.holds]
  parked := fun c t o => by simp [init]
  nodup := fun c => List.nodup_nil
  unready := fun _ => trivial
  inside := fun _ => trivial
  settled := fun _ => rfl
  conds := fun c => rfl
  returning := fun c t o => by
    simp [init, Sections.init, CondVar.empty, CondVar.returning, LockPc.resuming]
  returningNodup := fun c => List.nodup_nil

-- ============================================================= one at a time

/-- A thread in the middle of its statements has the mutex. -/
theorem Sim.owner_of_body (h : Sim sec s m) {o : Op} {again : Bool} {n : Nat}
    (hpc : s.pc t = .body o again n) : s.owner = some t :=
  (h.owner t).1 (by rw [hpc]; rfl)

/-- When a thread has the mutex and has done nothing yet, nobody has. -/
theorem Sim.data_eq (h : Sim sec s m) (hown : s.owner = some t)
    (hpc : ∀ o again n, s.pc t ≠ .body o again n) : m.data = s.data := by
  refine h.settled fun u o again n hu => ?_
  have heq := h.owner_of_body hu
  rw [hown] at heq
  cases heq
  exact hpc o again n hu

/-- No other thread is under the lock. -/
theorem Sim.others_outside (h : Sim sec s m) (hown : s.owner = some t) {u : τ}
    (hu : u ≠ t) : (s.pc u).owns = false := by
  rw [Bool.eq_false_iff]
  intro howns
  have hother := (h.owner u).1 howns
  rw [hown] at hother
  cases hother
  exact hu rfl

/-- `holder_` is no other thread's either. -/
theorem Sim.holder_ne (h : Sim sec s m) (hown : s.owner = some t) {u : τ}
    (hu : u ≠ t) : s.holder ≠ some u := by
  intro hholder
  have howns := LockPc.owns_of_holds ((h.holder u).2 hholder)
  rw [h.others_outside hown hu] at howns
  cases howns

/-- The place was empty, or the thread's, and is the thread's now. -/
theorem taken_ne {x : Option τ} (hx : ∀ u, u ≠ t → x ≠ some u) :
    ∀ u, u ≠ t → (some t = some u ↔ x = some u) := by
  intro u hu
  refine iff_of_false (fun heq => ?_) (hx u hu)
  cases heq
  exact hu rfl

/-- The place was the thread's, and is empty now. -/
theorem left_ne {x : Option τ} (hx : x = some t) :
    ∀ u, u ≠ t → (none = some u ↔ x = some u) := by
  intro u hu
  refine iff_of_false (by rintro ⟨⟩) fun heq => ?_
  rw [hx] at heq
  cases heq
  exact hu rfl

/-- What a thread outside of the lock has to do with the data. -/
theorem outside_data {q : LockPc Op} {d e : σ} (hq : q.owns = false) :
    q.Unready sec d ∧ q.Inside sec d e := by
  cases q with
  | outside | locking | parked | awake => exact ⟨trivial, trivial⟩
  | locked | testing | waiting | unassigned | back | body | unlocking
  | releasing => cases hq

section Update

variable [DecidableEq τ] {pc : τ → LockPc Op}

/-- Who is in some place, when one thread moves. -/
theorem update_iff {f : LockPc Op → Bool} {x x' : Option τ}
    (h : ∀ u, f (pc u) = true ↔ x = some u) (ht : f p = true ↔ x' = some t)
    (hne : ∀ u, u ≠ t → (x' = some u ↔ x = some u)) :
    ∀ u, f (Function.update pc t p u) = true ↔ x' = some u := by
  intro u
  by_cases hu : u = t
  · subst hu
    rw [Function.update_self]
    exact ht
  · rw [Function.update_of_ne hu, hne u hu]
    exact h u

end Update

-- ======================================================== the silent steps

section Silent

variable [DecidableEq τ]

/-- Who is parked does not change when one that is not parked moves to a
place where it is not parked. -/
theorem Sim.parked_update (h : Sim sec s m) (hold : ∀ o, s.pc t ≠ .parked o)
    (hnew : ∀ o, p ≠ .parked o) (c : κ) (u : τ) (o : Op) :
    (u, o) ∈ s.parked c
      ↔ Function.update s.pc t p u = .parked o ∧ (sec o).cond = c := by
  rw [h.parked]
  by_cases hu : u = t
  · subst hu
    rw [Function.update_self]
    exact iff_of_false (fun hc => hold o hc.1) (fun hc => hnew o hc.1)
  · rw [Function.update_of_ne hu]

/-- Who is coming back does not change when one moves that is coming back
as before. -/
theorem Sim.returning_update (h : Sim sec s m)
    (hres : p.resuming = (s.pc t).resuming) (c : κ) (u : τ) (o : Op) :
    (u, o) ∈ (m.conds c).returning
      ↔ (Function.update s.pc t p u).resuming = some o ∧ (sec o).cond = c := by
  rw [h.returning]
  by_cases hu : u = t
  · subst hu
    rw [Function.update_self, hres]
  · rw [Function.update_of_ne hu]

/-- A step that changes no data: the thread is not in the middle of its
statements, before or after it. -/
theorem Sim.moved (h : Sim sec s m) (owner holder : Option τ)
    (howner : p.owns = true ↔ owner = some t)
    (hownerNe : ∀ u, u ≠ t → (owner = some u ↔ s.owner = some u))
    (hholder : p.holds = true ↔ holder = some t)
    (hholderNe : ∀ u, u ≠ t → (holder = some u ↔ s.holder = some u))
    (hold : ∀ o, s.pc t ≠ .parked o) (hnew : ∀ o, p ≠ .parked o)
    (hres : p.resuming = (s.pc t).resuming)
    (hbodyOld : ∀ o again n, s.pc t ≠ .body o again n)
    (hbodyNew : ∀ o again n, p ≠ .body o again n)
    (hunready : p.Unready sec s.data) :
    Sim sec { s.setPc t p with owner := owner, holder := holder } m where
  owner := update_iff h.owner howner hownerNe
  holder := update_iff h.holder hholder hholderNe
  parked := h.parked_update hold hnew
  nodup := h.nodup
  unready := (Function.forall_update_iff s.pc fun _ q => q.Unready sec s.data).2
    ⟨hunready, fun u _ => h.unready u⟩
  inside := by
    refine (Function.forall_update_iff s.pc
      fun _ q => q.Inside sec m.data s.data).2 ⟨?_, fun u _ => h.inside u⟩
    cases p with
    | body o again n => exact absurd rfl (hbodyNew o again n)
    | _ => trivial
  settled := by
    intro hnone
    refine h.settled fun u => ?_
    by_cases hu : u = t
    · rw [hu]
      exact hbodyOld
    · intro o again n
      have hne := hnone u o again n
      simp only [setPc, Function.update_of_ne hu] at hne
      exact hne
  conds := h.conds
  returning := h.returning_update hres
  returningNodup := h.returningNodup

/-- A step under the lock: the statements start, or one of them is over. -/
theorem Sim.worked {o : Op} {again : Bool} {n : Nat} (h : Sim sec s m)
    (data : σ) (hown : s.owner = some t) (hholds : (s.pc t).holds = true)
    (hold : ∀ o, s.pc t ≠ .parked o)
    (hres : (LockPc.body o again n).resuming = (s.pc t).resuming)
    (hready : (sec o).ready m.data = true)
    (hdone : statements ((sec o).body.take n) m.data = .ok data) :
    Sim sec { s.setPc t (.body o again n) with data := data } m where
  owner := update_iff h.owner (iff_of_true rfl hown) fun _ _ => .rfl
  holder := update_iff h.holder (iff_of_true rfl ((h.holder t).1 hholds))
    fun _ _ => .rfl
  parked := h.parked_update hold (by rintro o ⟨⟩)
  nodup := h.nodup
  unready := (Function.forall_update_iff s.pc fun _ q => q.Unready sec data).2
    ⟨trivial, fun u hu =>
      (outside_data (e := data) (h.others_outside hown hu)).1⟩
  inside := (Function.forall_update_iff s.pc fun _ q => q.Inside sec m.data data).2
    ⟨⟨hready, hdone⟩, fun u hu =>
      (outside_data (h.others_outside hown hu)).2⟩
  settled := by
    intro hnone
    refine absurd ?_ (hnone t o again n)
    simp only [setPc, Function.update_self]
  conds := h.conds
  returning := h.returning_update hres
  returningNodup := h.returningNodup

/-- Who is coming back when the thread's section is over. -/
theorem Sim.returning_over {m₁ : Sections σ κ τ Op} (h : Sim sec s m)
    (hm₁ : ∀ c u o', (u, o') ∈ (m₁.conds c).returning
      ↔ u ≠ t ∧ (u, o') ∈ (m.conds c).returning)
    (hres : p.resuming = none) (c : κ) (u : τ) (o : Op) :
    (u, o) ∈ (m₁.conds c).returning
      ↔ (Function.update s.pc t p u).resuming = some o ∧ (sec o).cond = c := by
  rw [hm₁]
  by_cases hu : u = t
  · subst hu
    rw [Function.update_self, hres]
    exact iff_of_false (fun hc => hc.1 rfl) (fun hc => by cases hc.1)
  · rw [Function.update_of_ne hu, ← h.returning]
    exact and_iff_right hu

end Silent

-- ============================================================== the waiters

section Waiters

variable [DecidableEq κ] {c c' : κ} {v : CondVar (τ × Op)}

theorem conds_setCond_self : (m.setCond c v).conds c = v :=
  Function.update_self ..

theorem conds_setCond_of_ne (h : c' ≠ c) :
    (m.setCond c v).conds c' = m.conds c' :=
  Function.update_of_ne h ..

theorem setCond_self (m : Sections σ κ τ Op) (c : κ) :
    m.setCond c (m.conds c) = m := by
  unfold Sections.setCond
  rw [Function.update_eq_self]

/-- Above, the thread gets the mutex, for the first time or back: it is no
waiter any more, and its section is next. -/
theorem Sim.start (h : Sim sec s m) (o : Op) (again : Bool)
    (hres : (s.pc t).resuming = if again then some o else none) (pick : Nat) :
    ∃ (act : SectionsAct κ τ Op) (m₁ : Sections σ κ τ Op),
      Sections.step sec m act = m₁.exec sec (t, o) pick
      ∧ m₁.data = m.data
      ∧ (∀ c, (m₁.conds c).parked = (m.conds c).parked)
      ∧ (∀ c u o', (u, o') ∈ (m₁.conds c).returning
          ↔ u ≠ t ∧ (u, o') ∈ (m.conds c).returning)
      ∧ ∀ c, (m₁.conds c).returning.Nodup := by
  cases again with
  | false =>
      refine ⟨.enter t o pick, m, rfl, rfl, fun _ => rfl, fun c u o' => ?_,
        h.returningNodup⟩
      constructor
      · intro hin
        refine ⟨?_, hin⟩
        rintro rfl
        have hsome := ((h.returning c u o').1 hin).1
        rw [hres] at hsome
        cases hsome
      · exact fun hin => hin.2
  | true =>
      have hin : (t, o) ∈ (m.conds (sec o).cond).returning :=
        (h.returning _ t o).2 ⟨hres, rfl⟩
      obtain ⟨k, v, hresume, hparked, hperm⟩ := CondVar.exists_resume hin
      obtain ⟨hgone, hnodup⟩ :=
        List.nodup_cons.1 (hperm.nodup_iff.1 (h.returningNodup (sec o).cond))
      have honly : ∀ c o', (t, o') ∈ (m.conds c).returning →
          o' = o ∧ c = (sec o).cond := by
        intro c o' hmem
        obtain ⟨hsome, hcond⟩ := (h.returning c t o').1 hmem
        rw [hres] at hsome
        cases hsome
        exact ⟨rfl, hcond.symm⟩
      refine ⟨.resume (sec o).cond k pick, m.setCond (sec o).cond v, ?_, rfl,
        fun c => ?_, fun c u o' => ?_, fun c => ?_⟩
      · simp only [Sections.step, hresume]
      · by_cases hc : c = (sec o).cond
        · subst hc
          rw [conds_setCond_self, hparked]
        · rw [conds_setCond_of_ne hc]
      · by_cases hc : c = (sec o).cond
        · subst hc
          rw [conds_setCond_self, hperm.mem_iff, List.mem_cons]
          constructor
          · intro hmem
            refine ⟨?_, .inr hmem⟩
            rintro rfl
            obtain ⟨rfl, -⟩ := honly _ o' (hperm.mem_iff.2 (.tail _ hmem))
            exact hgone hmem
          · rintro ⟨hne, heq | hmem⟩
            · cases heq
              exact absurd rfl hne
            · exact hmem
        · rw [conds_setCond_of_ne hc]
          constructor
          · intro hmem
            refine ⟨?_, hmem⟩
            rintro rfl
            exact hc (honly c o' hmem).2
          · exact fun hmem => hmem.2
      · by_cases hc : c = (sec o).cond
        · subst hc
          rw [conds_setCond_self]
          exact hnodup
        · rw [conds_setCond_of_ne hc]
          exact h.returningNodup c

/-- A step that is silent above. -/
theorem answers_silent {s' : MutexLock σ κ τ Op} (h : Sim sec s' m) :
    ∃ bs, Answers (Sim sec) (.ok s' : Except ε _)
      (run (Sections.step sec) m bs) :=
  ⟨[], m, rfl, h⟩

/-- A step that is one above. -/
theorem answers_step {s' : MutexLock σ κ τ Op} {m' : Sections σ κ τ Op}
    {act : SectionsAct κ τ Op} (hact : Sections.step sec m act = .ok m')
    (h : Sim sec s' m') :
    ∃ bs, Answers (Sim sec) (.ok s' : Except ε _)
      (run (Sections.step sec) m bs) :=
  ⟨[act], m', run_cons_ok [] hact, h⟩

variable [DecidableEq τ]

theorem wake_of_none {i : Nat} (h : (s.parked c)[i]? = none) :
    s.wake c i = s := by
  unfold wake
  rw [h]

/-- One more is awake, below and above. -/
theorem Sim.woke {i : Nat} {o : Op} (h : Sim sec s m)
    (hget : (s.parked c)[i]? = some (t, o))
    (hparked : v.parked = (s.parked c).eraseIdx i)
    (hreturning : v.returning.Perm ((t, o) :: (m.conds c).returning)) :
    Sim sec (s.wake c i) (m.setCond c v) := by
  obtain ⟨hlt, hat⟩ := List.getElem?_eq_some_iff.1 hget
  obtain ⟨hpc, hcond⟩ := (h.parked c t o).1 (List.mem_iff_getElem?.2 ⟨i, hget⟩)
  have hwake : s.wake c i = { s.setPc t (.awake o) with
      parked := Function.update s.parked c ((s.parked c).eraseIdx i) } := by
    unfold wake
    rw [hget]
  have howner := h.owner t
  have hholder := h.holder t
  rw [hpc] at howner hholder
  have hperm : (s.parked c).Perm ((t, o) :: (s.parked c).eraseIdx i) := by
    rw [← hat]
    exact (List.getElem_cons_eraseIdx_perm hlt).symm
  obtain ⟨hgone, hnodup⟩ := List.nodup_cons.1 (hperm.nodup_iff.1 (h.nodup c))
  -- the thread was parked for this call, on this condition, and not coming back
  have honly : ∀ c' o', (t, o') ∈ s.parked c' → o' = o ∧ c' = c := by
    intro c' o' hin
    obtain ⟨hpc', hcond'⟩ := (h.parked c' t o').1 hin
    rw [hpc] at hpc'
    cases hpc'
    exact ⟨rfl, hcond'.symm.trans hcond⟩
  have hnot : ∀ c' o', (t, o') ∉ (m.conds c').returning := by
    intro c' o' hin
    have hres := ((h.returning c' t o').1 hin).1
    rw [hpc] at hres
    cases hres
  rw [hwake]
  exact {
    owner := update_iff h.owner howner fun _ _ => .rfl
    holder := update_iff h.holder hholder fun _ _ => .rfl
    parked := by
      intro c' u o'
      by_cases hu : u = t
      · subst hu
        simp only [setPc, Function.update_self]
        refine iff_of_false (fun hin => ?_) (fun hc => by cases hc.1)
        by_cases hc : c' = c
        · subst hc
          rw [Function.update_self] at hin
          obtain ⟨rfl, -⟩ := honly c' o' (List.mem_of_mem_eraseIdx hin)
          exact hgone hin
        · rw [Function.update_of_ne hc] at hin
          exact hc (honly c' o' hin).2
      · simp only [setPc, Function.update_of_ne hu]
        rw [← h.parked]
        by_cases hc : c' = c
        · subst hc
          rw [Function.update_self, hperm.mem_iff, List.mem_cons]
          constructor
          · exact .inr
          · rintro (heq | hin)
            · cases heq
              exact absurd rfl hu
            · exact hin
        · rw [Function.update_of_ne hc]
    nodup := (Function.forall_update_iff s.parked fun _ l => l.Nodup).2
      ⟨hnodup, fun c' _ => h.nodup c'⟩
    unready := (Function.forall_update_iff s.pc
      fun _ q => q.Unready sec s.data).2 ⟨trivial, fun u _ => h.unready u⟩
    inside := (Function.forall_update_iff s.pc
      fun _ q => q.Inside sec m.data s.data).2 ⟨trivial, fun u _ => h.inside u⟩
    settled := by
      intro hnone
      refine h.settled fun u => ?_
      by_cases hu : u = t
      · subst hu
        rw [hpc]
        rintro o again n ⟨⟩
      · intro o again n
        have hne := hnone u o again n
        simp only [setPc, Function.update_of_ne hu] at hne
        exact hne
    conds := by
      intro c'
      by_cases hc : c' = c
      · subst hc
        change _ = Function.update s.parked c' _ c'
        rw [conds_setCond_self, hparked, Function.update_self]
      · change _ = Function.update s.parked c _ c'
        rw [conds_setCond_of_ne hc, h.conds, Function.update_of_ne hc]
    returning := by
      intro c' u o'
      by_cases hc : c' = c
      · subst hc
        rw [conds_setCond_self, hreturning.mem_iff, List.mem_cons]
        by_cases hu : u = t
        · subst hu
          simp only [setPc, Function.update_self, LockPc.resuming]
          constructor
          · rintro (heq | hin)
            · cases heq
              exact ⟨rfl, hcond⟩
            · exact absurd hin (hnot c' o')
          · rintro ⟨heq, -⟩
            cases heq
            exact .inl rfl
        · simp only [setPc, Function.update_of_ne hu]
          rw [← h.returning]
          constructor
          · rintro (heq | hin)
            · cases heq
              exact absurd rfl hu
            · exact hin
          · exact .inr
      · rw [conds_setCond_of_ne hc]
        by_cases hu : u = t
        · subst hu
          simp only [setPc, Function.update_self, LockPc.resuming]
          refine iff_of_false (hnot c' o') ?_
          rintro ⟨heq, hcond'⟩
          cases heq
          exact hc (hcond'.symm.trans hcond)
        · simp only [setPc, Function.update_of_ne hu]
          exact h.returning c' u o'
    returningNodup := by
      intro c'
      by_cases hc : c' = c
      · subst hc
        rw [conds_setCond_self, hreturning.nodup_iff, List.nodup_cons]
        exact ⟨hnot c' o, h.returningNodup c'⟩
      · rw [conds_setCond_of_ne hc]
        exact h.returningNodup c' }

/-- Where a thread is when all that were parked on `c` are awake. -/
theorem Sim.wakeAll_pc (h : Sim sec s m) (c : κ) (u : τ) :
    (∃ o, (u, o) ∈ s.parked c ∧ s.pc u = .parked o
        ∧ (s.wakeAll c).pc u = .awake o)
      ∨ ((∀ o, (u, o) ∉ s.parked c) ∧ (s.wakeAll c).pc u = s.pc u) := by
  simp only [wakeAll]
  split
  next w hw =>
    have hmem := List.mem_of_find?_eq_some hw
    have heq : w.1 = u := beq_iff_eq.1 (List.find?_some (p := fun w : τ × Op => w.1 == u) hw)
    subst heq
    exact .inl ⟨w.2, hmem, ((h.parked c w.1 w.2).1 hmem).1, rfl⟩
  next hw =>
    refine .inr ⟨fun o hmem => ?_, rfl⟩
    exact List.find?_eq_none.1 hw (u, o) hmem (beq_self_eq_true u)

/-- All of them are awake, below and above. -/
theorem Sim.wokeAll (h : Sim sec s m) (c : κ) :
    Sim sec (s.wakeAll c) (m.setCond c (m.conds c).notifyAll) where
  owner := by
    intro u
    rw [show (s.wakeAll c).owner = s.owner from rfl, ← h.owner u]
    obtain ⟨o, -, hpc, hpc'⟩ | ⟨-, hpc'⟩ := h.wakeAll_pc c u
    · rw [hpc, hpc']
      exact .rfl
    · rw [hpc']
  holder := by
    intro u
    rw [show (s.wakeAll c).holder = s.holder from rfl, ← h.holder u]
    obtain ⟨o, -, hpc, hpc'⟩ | ⟨-, hpc'⟩ := h.wakeAll_pc c u
    · rw [hpc, hpc']
      exact .rfl
    · rw [hpc']
  parked := by
    intro c' u o
    change (u, o) ∈ Function.update s.parked c [] c' ↔ _
    obtain ⟨o', hin, hpc, hpc'⟩ | ⟨hnot, hpc'⟩ := h.wakeAll_pc c u
    · rw [hpc']
      refine iff_of_false (fun hmem => ?_) (fun hc => by cases hc.1)
      by_cases hc : c' = c
      · subst hc
        rw [Function.update_self] at hmem
        cases hmem
      · rw [Function.update_of_ne hc] at hmem
        obtain ⟨heq, hcond⟩ := (h.parked c' u o).1 hmem
        rw [hpc] at heq
        cases heq
        exact hc (hcond.symm.trans ((h.parked c u _).1 hin).2)
    · rw [hpc', ← h.parked]
      by_cases hc : c' = c
      · subst hc
        rw [Function.update_self]
        exact iff_of_false List.not_mem_nil (hnot o)
      · rw [Function.update_of_ne hc]
  nodup := (Function.forall_update_iff s.parked fun _ l => l.Nodup).2
    ⟨List.nodup_nil, fun c' _ => h.nodup c'⟩
  unready := by
    intro u
    obtain ⟨o, -, -, hpc'⟩ | ⟨-, hpc'⟩ := h.wakeAll_pc c u
    · rw [hpc']
      trivial
    · rw [hpc']
      exact h.unready u
  inside := by
    intro u
    obtain ⟨o, -, -, hpc'⟩ | ⟨-, hpc'⟩ := h.wakeAll_pc c u
    · rw [hpc']
      trivial
    · rw [hpc']
      exact h.inside u
  settled := by
    intro hnone
    refine h.settled fun u => ?_
    obtain ⟨o, -, hpc, -⟩ | ⟨-, hpc'⟩ := h.wakeAll_pc c u
    · rw [hpc]
      rintro o again n ⟨⟩
    · rw [← hpc']
      exact hnone u
  conds := by
    intro c'
    change _ = Function.update s.parked c [] c'
    by_cases hc : c' = c
    · subst hc
      rw [conds_setCond_self, Function.update_self]
      rfl
    · rw [conds_setCond_of_ne hc, Function.update_of_ne hc]
      exact h.conds c'
  returning := by
    intro c' u o
    by_cases hc : c' = c
    · subst hc
      rw [conds_setCond_self, (CondVar.returning_notifyAll _).mem_iff,
        List.mem_append, h.conds]
      obtain ⟨o', hin, hpc, hpc'⟩ | ⟨hnot, hpc'⟩ := h.wakeAll_pc c' u
      · rw [hpc', h.parked, h.returning, hpc]
        simp only [LockPc.resuming]
        constructor
        · rintro (⟨heq, hcond⟩ | ⟨heq, -⟩)
          · cases heq
            exact ⟨rfl, hcond⟩
          · cases heq
        · rintro ⟨heq, hcond⟩
          cases heq
          exact .inl ⟨rfl, hcond⟩
      · rw [hpc', or_iff_right (hnot o)]
        exact h.returning c' u o
    · rw [conds_setCond_of_ne hc, h.returning]
      obtain ⟨o', hin, hpc, hpc'⟩ | ⟨-, hpc'⟩ := h.wakeAll_pc c u
      · rw [hpc, hpc']
        simp only [LockPc.resuming]
        refine iff_of_false (fun hr => by cases hr.1) ?_
        rintro ⟨heq, hcond⟩
        cases heq
        exact hc (hcond.symm.trans ((h.parked c u _).1 hin).2)
      · rw [hpc']
  returningNodup := by
    intro c'
    by_cases hc : c' = c
    · subst hc
      rw [conds_setCond_self, (CondVar.returning_notifyAll _).nodup_iff,
        List.nodup_append]
      refine ⟨h.conds c' ▸ h.nodup c', h.returningNodup c', ?_⟩
      rintro ⟨u, o⟩ hin ⟨u', o'⟩ hin' heq
      cases heq
      rw [h.conds] at hin
      have hpc := ((h.parked c' u o).1 hin).1
      have hres := ((h.returning c' u o).1 hin').1
      rw [hpc] at hres
      cases hres
    · rw [conds_setCond_of_ne hc]
      exact h.returningNodup c'

/-- A signal wakes the same threads below and above. -/
theorem Sim.signal (h : Sim sec s m) (pick : Nat) (sig : Signal κ) :
    Sim sec (s.signal pick sig) (m.signal pick sig) := by
  cases sig with
  | none => exact h
  | notifyAll c => exact h.wokeAll c
  | notify c =>
      simp only [MutexLock.signal, Sections.signal]
      rw [← h.conds c]
      cases hget : (m.conds c).parked[pick % (m.conds c).parked.length]? with
      | some w =>
          obtain ⟨hparked, hreturning⟩ := CondVar.returning_notify hget
          rw [h.conds c] at hget hparked ⊢
          exact h.woke hget hparked hreturning
      | none =>
          rw [CondVar.notify_of_none hget, setCond_self]
          rw [h.conds c] at hget ⊢
          rw [wake_of_none hget]
          exact h

/-- A wakeup for no reason, likewise. -/
theorem Sim.wakeup (h : Sim sec s m) (c : κ) (k : Nat) :
    Sim sec (s.wake c k) (m.setCond c ((m.conds c).wakeup k)) := by
  cases hget : (s.parked c)[k]? with
  | some w =>
      have hget' := hget
      rw [← h.conds c] at hget'
      obtain ⟨hparked, hreturning⟩ := CondVar.returning_wakeup hget'
      rw [h.conds c] at hparked
      exact h.woke hget hparked hreturning
  | none =>
      have hget' := hget
      rw [← h.conds c] at hget'
      rw [CondVar.wakeup_of_none hget', setCond_self, wake_of_none hget]
      exact h

-- ================================================== the section happens

/-- A thread that is not ready parks: above, that is its section. -/
theorem sim_park {o : Op} {again : Bool} (h : Sim sec s m)
    (hpc : s.pc t = .unassigned o again) :
    ∃ (act : SectionsAct κ τ Op) (m' : Sections σ κ τ Op),
      Sections.step sec m act = .ok m'
      ∧ Sim sec { s.setPc t (.parked o) with
          owner := none
          parked := Function.update s.parked (sec o).cond
            (s.parked (sec o).cond ++ [(t, o)]) } m' := by
  have hown : s.owner = some t := (h.owner t).1 (by rw [hpc]; rfl)
  have hholder : s.holder ≠ some t := by
    intro heq
    have hholds := (h.holder t).2 heq
    rw [hpc] at hholds
    cases hholds
  have hdata : m.data = s.data := h.data_eq hown (by rw [hpc]; rintro o again n ⟨⟩)
  have hunready : (sec o).ready s.data = false := by
    have hu := h.unready t
    rw [hpc] at hu
    exact hu
  have hnot : ∀ c o', (t, o') ∉ s.parked c := by
    intro c o' hin
    have hpc' := ((h.parked c t o').1 hin).1
    rw [hpc] at hpc'
    cases hpc'
  obtain ⟨act, m₁, hact, hdata₁, hparked₁, hret₁, hnodup₁⟩ :=
    h.start o again (by rw [hpc]; rfl) 0
  refine ⟨act, m₁.setCond (sec o).cond ((m₁.conds (sec o).cond).wait (t, o)), ?_, ?_⟩
  · rw [hact]
    unfold Sections.exec
    rw [if_neg (by rw [hdata₁, hdata, hunready]; exact Bool.false_ne_true)]
  exact {
    owner := by
      refine update_iff h.owner ?_ fun u hu => ?_
      · exact iff_of_false Bool.false_ne_true (by rintro ⟨⟩)
      · refine iff_of_false (by rintro ⟨⟩) fun heq => ?_
        rw [hown] at heq
        cases heq
        exact hu rfl
    holder := update_iff h.holder (iff_of_false Bool.false_ne_true hholder)
      fun _ _ => .rfl
    parked := by
      intro c u o'
      change (u, o') ∈ Function.update s.parked _ _ c
        ↔ Function.update s.pc t _ u = _ ∧ _
      by_cases hu : u = t
      · subst hu
        rw [Function.update_self]
        by_cases hc : c = (sec o).cond
        · subst hc
          rw [Function.update_self, List.mem_append, List.mem_singleton]
          constructor
          · rintro (hin | heq)
            · exact absurd hin (hnot _ o')
            · cases heq
              exact ⟨rfl, rfl⟩
          · rintro ⟨heq, -⟩
            cases heq
            exact .inr rfl
        · rw [Function.update_of_ne hc]
          refine iff_of_false (hnot c o') ?_
          rintro ⟨heq, hcond⟩
          cases heq
          exact hc hcond.symm
      · rw [Function.update_of_ne hu, ← h.parked]
        by_cases hc : c = (sec o).cond
        · subst hc
          rw [Function.update_self, List.mem_append, List.mem_singleton]
          refine or_iff_left fun heq => ?_
          cases heq
          exact hu rfl
        · rw [Function.update_of_ne hc]
    nodup := (Function.forall_update_iff s.parked fun _ l => l.Nodup).2
      ⟨List.nodup_append.2 ⟨h.nodup _, List.nodup_cons.2 ⟨List.not_mem_nil, List.nodup_nil⟩,
        fun w hw w' hw' heq => by
        rw [List.mem_singleton] at hw'
        subst heq hw'
        exact hnot _ o hw⟩, fun c _ => h.nodup c⟩
    unready := (Function.forall_update_iff s.pc
      fun _ q => q.Unready sec s.data).2 ⟨trivial, fun u _ => h.unready u⟩
    inside := (Function.forall_update_iff s.pc
      fun _ q => q.Inside sec m₁.data s.data).2 ⟨trivial, fun u hu =>
        (outside_data (h.others_outside hown hu)).2⟩
    settled := fun _ => hdata₁.trans hdata
    conds := by
      intro c
      change _ = Function.update s.parked _ _ c
      by_cases hc : c = (sec o).cond
      · subst hc
        rw [conds_setCond_self, Function.update_self, ← h.conds, ← hparked₁]
        rfl
      · rw [conds_setCond_of_ne hc, Function.update_of_ne hc, hparked₁, h.conds]
    returning := by
      intro c
      by_cases hc : c = (sec o).cond
      · subst hc
        rw [conds_setCond_self]
        exact h.returning_over hret₁ rfl _
      · rw [conds_setCond_of_ne hc]
        exact h.returning_over hret₁ rfl c
    returningNodup := by
      intro c
      by_cases hc : c = (sec o).cond
      · subst hc
        rw [conds_setCond_self]
        exact hnodup₁ _
      · rw [conds_setCond_of_ne hc]
        exact hnodup₁ c }

/-- The statements are over: above, that is the section. -/
theorem sim_commit {o : Op} {again : Bool} {n : Nat} (h : Sim sec s m)
    (hpc : s.pc t = .body o again n) (hover : (sec o).body[n]? = none)
    (pick : Nat) :
    ∃ (act : SectionsAct κ τ Op) (m' : Sections σ κ τ Op),
      Sections.step sec m act = .ok m'
      ∧ Sim sec ((s.setPc t .unlocking).signal pick ((sec o).signal s.data)) m' := by
  have hown : s.owner = some t := h.owner_of_body hpc
  have hholder : s.holder = some t := (h.holder t).1 (by rw [hpc]; rfl)
  obtain ⟨hready, hdone⟩ : (sec o).ready m.data = true
      ∧ statements ((sec o).body.take n) m.data = .ok s.data := by
    have hin := h.inside t
    rw [hpc] at hin
    exact hin
  rw [List.take_of_length_le (List.getElem?_eq_none_iff.1 hover)] at hdone
  obtain ⟨act, m₁, hact, hdata₁, hparked₁, hret₁, hnodup₁⟩ :=
    h.start o again (by rw [hpc]; rfl) pick
  refine ⟨act, ({ m₁ with data := s.data }).signal pick ((sec o).signal s.data),
    ?_, Sim.signal ?_ pick _⟩
  · rw [hact]
    unfold Sections.exec
    rw [if_pos (by rw [hdata₁]; exact hready), hdata₁, hdone]
    rfl
  exact {
    owner := update_iff h.owner (iff_of_true rfl hown) fun _ _ => .rfl
    holder := update_iff h.holder (iff_of_true rfl hholder) fun _ _ => .rfl
    parked := h.parked_update (by rw [hpc]; rintro o ⟨⟩) (by rintro o ⟨⟩)
    nodup := h.nodup
    unready := (Function.forall_update_iff s.pc
      fun _ q => q.Unready sec s.data).2 ⟨trivial, fun u _ => h.unready u⟩
    inside := (Function.forall_update_iff s.pc
      fun _ q => q.Inside sec s.data s.data).2 ⟨trivial, fun u hu =>
        (outside_data (h.others_outside hown hu)).2⟩
    settled := fun _ => rfl
    conds := fun c => (hparked₁ c).trans (h.conds c)
    returning := h.returning_over hret₁ rfl
    returningNodup := hnodup₁ }

-- ============================================================ one step

/-- A statement under the lock: over, or failed; then the section above
fails with the same assertion. -/
theorem sim_statement {o : Op} {again : Bool} {n : Nat} {f : σ → Except ε σ}
    (h : Sim sec s m) (hpc : s.pc t = .body o again n)
    (hf : (sec o).body[n]? = some f) :
    ∃ bs, Answers (Sim sec)
      (f s.data >>= fun data =>
        .ok { s.setPc t (.body o again (n + 1)) with data := data })
      (run (Sections.step sec) m bs) := by
  obtain ⟨hready, hdone⟩ : (sec o).ready m.data = true
      ∧ statements ((sec o).body.take n) m.data = .ok s.data := by
    have hin := h.inside t
    rw [hpc] at hin
    exact hin
  cases hfd : f s.data with
  | ok data =>
      refine answers_silent (h.worked data (h.owner_of_body hpc) (by rw [hpc]; rfl)
        (by rw [hpc]; rintro o ⟨⟩) (by rw [hpc]; rfl) hready ?_)
      rw [statements_take_succ hf, hdone]
      exact hfd
  | error e =>
      obtain ⟨act, m₁, hact, hdata₁, -⟩ :=
        h.start o again (by rw [hpc]; rfl) 0
      refine ⟨[act], run_cons_error [] ?_⟩
      rw [hact]
      unfold Sections.exec
      rw [if_pos (by rw [hdata₁]; exact hready), hdata₁,
        statements_error hf hdone hfd]
      rfl

/-- A thread gets the mutex, if it is free. -/
theorem sim_acquire (h : Sim sec s m) (hfree : s.owner = none)
    (hp : p.owns = true) (hholds : p.holds = (s.pc t).holds)
    (hold : ∀ o, s.pc t ≠ .parked o) (hnew : ∀ o, p ≠ .parked o)
    (hres : p.resuming = (s.pc t).resuming)
    (hbodyOld : ∀ o again n, s.pc t ≠ .body o again n)
    (hbodyNew : ∀ o again n, p ≠ .body o again n)
    (hunready : p.Unready sec s.data) :
    ∃ bs, Answers (Sim sec)
      (.ok { s.setPc t p with owner := some t } : Except ε _)
      (run (Sections.step sec) m bs) := by
  refine answers_silent (h.moved _ s.holder (iff_of_true hp rfl)
    (taken_ne ?_) ?_ (fun _ _ => .rfl) hold hnew hres hbodyOld hbodyNew hunready)
  · intro u _ heq
    rw [hfree] at heq
    cases heq
  · rw [hholds]
    exact h.holder t

/-- A thread that has the mutex sets `holder_` to itself. -/
theorem sim_assignHolder (h : Sim sec s m) (hown : s.owner = some t)
    (hp : p.owns = true) (hholds : p.holds = true)
    (hold : ∀ o, s.pc t ≠ .parked o) (hnew : ∀ o, p ≠ .parked o)
    (hres : p.resuming = (s.pc t).resuming)
    (hbodyOld : ∀ o again n, s.pc t ≠ .body o again n)
    (hbodyNew : ∀ o again n, p ≠ .body o again n)
    (hunready : p.Unready sec s.data) :
    ∃ bs, Answers (Sim sec)
      (.ok { s.setPc t p with holder := some t } : Except ε _)
      (run (Sections.step sec) m bs) :=
  answers_silent (h.moved s.owner _ (iff_of_true hp hown)
    (fun _ _ => .rfl) (iff_of_true hholds rfl)
    (taken_ne fun _ hu => h.holder_ne hown hu) hold hnew hres hbodyOld hbodyNew
    hunready)

/-- A thread that has the mutex sets `holder_` to 0. -/
theorem sim_unassignHolder (h : Sim sec s m) (hown : s.owner = some t)
    (hholder : s.holder = some t) (hp : p.owns = true) (hholds : p.holds = false)
    (hold : ∀ o, s.pc t ≠ .parked o) (hnew : ∀ o, p ≠ .parked o)
    (hres : p.resuming = (s.pc t).resuming)
    (hbodyOld : ∀ o again n, s.pc t ≠ .body o again n)
    (hbodyNew : ∀ o again n, p ≠ .body o again n)
    (hunready : p.Unready sec s.data) :
    ∃ bs, Answers (Sim sec)
      (.ok { s.setPc t p with holder := none } : Except ε _)
      (run (Sections.step sec) m bs) := by
  refine answers_silent (h.moved s.owner _ (iff_of_true hp hown)
    (fun _ _ => .rfl) (iff_of_false ?_ (by rintro ⟨⟩)) (left_ne hholder) hold
    hnew hres hbodyOld hbodyNew hunready)
  rw [hholds]
  exact Bool.false_ne_true

/-- Whatever step a thread takes next, the sections above keep up. -/
theorem sim_go (h : Sim sec s m) (t : τ) (pick : Nat) :
    ∃ bs, Answers (Sim sec) (s.go sec t pick) (run (Sections.step sec) m bs) := by
  have howner := h.owner t
  have hholder := h.holder t
  unfold go
  cases hpc : s.pc t with
  | outside => exact answers_silent h
  | parked o => exact answers_silent h
  | locking o =>
      simp only
      split
      next hfree =>
        exact sim_acquire h hfree rfl (by rw [hpc]; rfl) (by rw [hpc]; rintro o ⟨⟩)
          (by rintro o ⟨⟩) (by rw [hpc]; rfl) (by rw [hpc]; rintro o again n ⟨⟩)
          (by rintro o again n ⟨⟩) trivial
      next => exact answers_silent h
  | awake o =>
      simp only
      split
      next hfree =>
        exact sim_acquire h hfree rfl (by rw [hpc]; rfl) (by rw [hpc]; rintro o ⟨⟩)
          (by rintro o ⟨⟩) (by rw [hpc]; rfl) (by rw [hpc]; rintro o again n ⟨⟩)
          (by rintro o again n ⟨⟩) trivial
      next => exact answers_silent h
  | locked o =>
      exact sim_assignHolder h (howner.1 (by rw [hpc]; rfl)) rfl rfl
        (by rw [hpc]; rintro o ⟨⟩) (by rintro o ⟨⟩) (by rw [hpc]; rfl)
        (by rw [hpc]; rintro o again n ⟨⟩) (by rintro o again n ⟨⟩) trivial
  | back o =>
      exact sim_assignHolder h (howner.1 (by rw [hpc]; rfl)) rfl rfl
        (by rw [hpc]; rintro o ⟨⟩) (by rintro o ⟨⟩) (by rw [hpc]; rfl)
        (by rw [hpc]; rintro o again n ⟨⟩) (by rintro o again n ⟨⟩) trivial
  | testing o again =>
      have hown : s.owner = some t := howner.1 (by rw [hpc]; rfl)
      have hholds : s.holder = some t := hholder.1 (by rw [hpc]; rfl)
      have hdata : m.data = s.data :=
        h.data_eq hown (by rw [hpc]; rintro o again n ⟨⟩)
      simp only
      split
      next hready =>
        refine answers_silent (h.worked s.data hown (by rw [hpc]; rfl)
          (by rw [hpc]; rintro o ⟨⟩) (by rw [hpc]; rfl) (by rw [hdata]; exact hready)
          ?_)
        rw [hdata]
        rfl
      next hunready =>
        exact answers_silent (h.moved s.owner s.holder
          (iff_of_true rfl hown) (fun _ _ => .rfl) (iff_of_true rfl hholds)
          (fun _ _ => .rfl) (by rw [hpc]; rintro o ⟨⟩) (by rintro o ⟨⟩)
          (by rw [hpc]; rfl) (by rw [hpc]; rintro o again n ⟨⟩)
          (by rintro o again n ⟨⟩) (Bool.eq_false_iff.2 hunready))
  | waiting o again =>
      have hunready := h.unready t
      rw [hpc] at hunready
      exact sim_unassignHolder h (howner.1 (by rw [hpc]; rfl))
        (hholder.1 (by rw [hpc]; rfl)) rfl rfl (by rw [hpc]; rintro o ⟨⟩)
        (by rintro o ⟨⟩) (by rw [hpc]; rfl) (by rw [hpc]; rintro o again n ⟨⟩)
        (by rintro o again n ⟨⟩) hunready
  | unassigned o again =>
      obtain ⟨act, m', hact, h'⟩ := sim_park h hpc
      exact answers_step hact h'
  | body o again n =>
      simp only
      split
      next f hf => exact sim_statement h hpc hf
      next hover =>
        obtain ⟨act, m', hact, h'⟩ := sim_commit h hpc hover pick
        exact answers_step hact h'
  | unlocking =>
      exact sim_unassignHolder h (howner.1 (by rw [hpc]; rfl))
        (hholder.1 (by rw [hpc]; rfl)) rfl rfl (by rw [hpc]; rintro o ⟨⟩)
        (by rintro o ⟨⟩) (by rw [hpc]; rfl) (by rw [hpc]; rintro o again n ⟨⟩)
        (by rintro o again n ⟨⟩) trivial
  | releasing =>
      have hown : s.owner = some t := howner.1 (by rw [hpc]; rfl)
      rw [hpc] at hholder
      exact answers_silent (h.moved _ s.holder
        (iff_of_false Bool.false_ne_true (by rintro ⟨⟩)) (left_ne hown) hholder
        (fun _ _ => .rfl) (by rw [hpc]; rintro o ⟨⟩) (by rintro o ⟨⟩)
        (by rw [hpc]; rfl) (by rw [hpc]; rintro o again n ⟨⟩)
        (by rintro o again n ⟨⟩) trivial)

theorem sim_step (s : MutexLock σ κ τ Op) (m : Sections σ κ τ Op)
    (a : LockAct κ τ Op) (h : Sim sec s m) :
    ∃ bs, Answers (Sim sec) (s.step sec a) (run (Sections.step sec) m bs) := by
  cases a with
  | go t pick => exact sim_go h t pick
  | wakeup c k =>
      exact answers_step
        (rfl : Sections.step sec m (.wakeup c k) = .ok _) (h.wakeup c k)
  | call t o =>
      have howner := h.owner t
      have hholder := h.holder t
      simp only [step]
      split
      next hpc =>
        rw [hpc] at howner hholder
        exact answers_silent (h.moved s.owner s.holder
          howner (fun _ _ => .rfl) hholder (fun _ _ => .rfl)
          (by rw [hpc]; rintro o ⟨⟩) (by rintro o ⟨⟩) (by rw [hpc]; rfl)
          (by rw [hpc]; rintro o again n ⟨⟩) (by rintro o again n ⟨⟩) trivial)
      next => exact answers_silent h

/-- Critical sections are atomic, for every class that locks and waits like
this and any number of threads: a run of the threads, one access at a time,
is answered by a run of the sections, one section at a time, which fails
the same assertion, or ends in a state that agrees with the threads' own.
In particular `isLockedByThisThread()` is true of the one thread that is
between `assignHolder()` and `unassignHolder()`, and when nobody is under
the lock the value is the one the sections have left. -/
theorem sections_atomic (sec : Op → Section σ κ ε) (d : σ)
    (acts : List (LockAct κ τ Op)) :
    ∃ bs, Answers (Sim sec) (run (step sec) (init d) acts)
      (run (Sections.step sec) (.init d) bs) :=
  run_simulates sim_step acts (sim_init d)

end Waiters

-- ======================================================= what can be seen

/-- No thread is in the middle of its statements. -/
def Settled (s : MutexLock σ κ τ Op) : Prop :=
  ∀ t o again n, s.pc t ≠ .body o again n

/-- One thread at a time is under the lock, and `isLockedByThisThread()` is
true of it between the two assignments of `holder_`. -/
def Exclusive [DecidableEq τ] (s : MutexLock σ κ τ Op) : Prop :=
  (∀ t u, (s.pc t).owns = true → (s.pc u).owns = true → t = u)
    ∧ ∀ t, s.isLockedByThisThread t = (s.pc t).holds

/-- A thread that waited on `c` is on its way to look again. -/
def ComesBack (sec : Op → Section σ κ ε) (s : MutexLock σ κ τ Op) (c : κ) :
    Prop :=
  ∃ t o, (s.pc t).resuming = some o ∧ (sec o).cond = c

theorem Sim.exclusive [DecidableEq τ] (h : Sim sec s m) : s.Exclusive := by
  refine ⟨fun t u ht hu => ?_, fun t => ?_⟩
  · have heq := (h.owner t).1 ht
    rw [(h.owner u).1 hu] at heq
    exact (Option.some.inj heq).symm
  · unfold isLockedByThisThread
    rw [Bool.eq_iff_iff, beq_iff_eq]
    exact (h.holder t).symm

/-- Nobody who is parked is forgotten, when the sections serve them. -/
theorem Sim.comesBack (h : Sim sec s m) {c : κ} {r : Nat}
    (hserved : (m.conds c).Served r) (hr : 0 < r) (hparked : s.parked c ≠ []) :
    s.ComesBack sec c := by
  rw [← h.conds c] at hparked
  obtain ⟨⟨t, o⟩, hw⟩ :=
    List.exists_mem_of_ne_nil _ (hserved.notified_ne_nil hr hparked)
  exact ⟨t, o, (h.returning c t o).1 (List.mem_append_left _ hw)⟩

/-- The value is what the sections have left, or a thread that was ready is
some statements ahead of it. -/
theorem Sim.data_cases (h : Sim sec s m) :
    m.data = s.data ∨ ∃ o n, (sec o).ready m.data = true
      ∧ statements ((sec o).body.take n) m.data = .ok s.data := by
  by_cases hsettled : s.Settled
  · exact .inl (h.settled hsettled)
  · unfold Settled at hsettled
    push Not at hsettled
    obtain ⟨t, o, again, n, hpc⟩ := hsettled
    have hinside := h.inside t
    rw [hpc] at hinside
    exact .inr ⟨o, n, hinside⟩

end MutexLock

end Cobra
