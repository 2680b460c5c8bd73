/-
A condition variable, as seen by the threads that use it under a mutex.

# Shape

A waiter is parked, or awake and on its way back to the mutex: notified,
or woken for no reason. `notify` moves one parked waiter, which one is up
to the scheduler (`pick`, taken modulo their number), and is lost when
nobody is parked. `resume` hands the mutex to one of those awake.

# No waiter is forgotten

`Served c r` is the counting invariant behind "one `notify` for every new
piece": as long as someone is parked, there are at least as many notified
waiters as pieces. The rules say how a piece more and a piece less keep
it, whoever takes the piece. A waiter woken for no reason is not counted:
it may take a piece, but nothing depends on it.

# No waiter is lost

`waiters` are all of them, in no order that means anything: parking adds
one, `resume` takes one out, and nothing else changes who waits.

`returning` are those awake, up to their order: `exists_resume` finds each
of them a turn.
-/
import Mathlib.Data.List.Perm.Basic

namespace Monitor

variable {ω : Type*}

structure CondVar (ω : Type*) where
  parked : List ω
  notified : List ω
  woken : List ω
  deriving Repr, DecidableEq

namespace CondVar

variable {c c' : CondVar ω} {w : ω} {k r : Nat}

def empty : CondVar ω := ⟨[], [], []⟩

/-- Park a waiter. -/
def wait (c : CondVar ω) (w : ω) : CondVar ω :=
  { c with parked := c.parked ++ [w] }

/-- Wake one of the parked waiters, if there is one. -/
def notify (c : CondVar ω) (pick : Nat) : CondVar ω :=
  match c.parked[pick % c.parked.length]? with
  | some w =>
      { c with
        parked := c.parked.eraseIdx (pick % c.parked.length)
        notified := c.notified ++ [w] }
  | none => c

/-- Wake all of them. -/
def notifyAll (c : CondVar ω) : CondVar ω :=
  { c with parked := [], notified := c.notified ++ c.parked }

/-- The `k`-th parked waiter wakes up for no reason. -/
def wakeup (c : CondVar ω) (k : Nat) : CondVar ω :=
  match c.parked[k]? with
  | some w =>
      { c with parked := c.parked.eraseIdx k, woken := c.woken ++ [w] }
  | none => c

/-- The `k`-th waiter that is awake gets the mutex back. -/
def resume (c : CondVar ω) (k : Nat) : Option (ω × CondVar ω) :=
  match c.notified[k]? with
  | some w => some (w, { c with notified := c.notified.eraseIdx k })
  | none =>
      (c.woken[k - c.notified.length]?).map fun w =>
        (w, { c with woken := c.woken.eraseIdx (k - c.notified.length) })

/-- The waiters on their way back to the mutex. -/
def awake (c : CondVar ω) : Nat := c.notified.length + c.woken.length

/-- All the waiters. -/
def waiting (c : CondVar ω) : Nat := c.parked.length + c.awake

-- ======================================================= what happens

/-- `notify` moves a parked waiter, or nobody is parked. -/
theorem notify_cases (c : CondVar ω) (pick : Nat) :
    (c.parked = [] ∧ c.notify pick = c)
      ∨ ((c.notify pick).parked.length + 1 = c.parked.length
        ∧ (c.notify pick).notified.length = c.notified.length + 1
        ∧ (c.notify pick).woken = c.woken) := by
  by_cases hnil : c.parked = []
  · left
    refine ⟨hnil, ?_⟩
    simp only [notify, hnil, List.getElem?_nil]
  · right
    have hlt : pick % c.parked.length < c.parked.length :=
      Nat.mod_lt _ (List.length_pos_of_ne_nil hnil)
    unfold notify
    rw [List.getElem?_eq_getElem hlt]
    refine ⟨?_, List.length_append, rfl⟩
    simp only [List.length_eraseIdx_of_lt hlt]
    omega

/-- A wakeup for no reason moves a parked waiter, or does nothing. -/
theorem wakeup_cases (c : CondVar ω) (k : Nat) :
    c.wakeup k = c
      ∨ ((c.wakeup k).parked.length + 1 = c.parked.length
        ∧ (c.wakeup k).notified = c.notified
        ∧ (c.wakeup k).woken.length = c.woken.length + 1) := by
  by_cases hlt : k < c.parked.length
  · right
    unfold wakeup
    rw [List.getElem?_eq_getElem hlt]
    refine ⟨?_, rfl, List.length_append⟩
    simp only [List.length_eraseIdx_of_lt hlt]
    omega
  · left
    unfold wakeup
    rw [List.getElem?_eq_none (by omega)]

/-- `resume` takes out one of those awake. -/
theorem resume_cases (h : c.resume k = some (w, c')) :
    c'.parked = c.parked
      ∧ ((c'.notified.length + 1 = c.notified.length ∧ c'.woken = c.woken)
        ∨ (c'.notified = c.notified
          ∧ c'.woken.length + 1 = c.woken.length)) := by
  unfold resume at h
  split at h
  next v hv =>
    obtain ⟨hlt, -⟩ := List.getElem?_eq_some_iff.mp hv
    cases h
    refine ⟨rfl, .inl ⟨?_, rfl⟩⟩
    simp only [List.length_eraseIdx_of_lt hlt]
    omega
  next hnone =>
    obtain ⟨v, hv, heq⟩ := Option.map_eq_some_iff.mp h
    obtain ⟨hlt, -⟩ := List.getElem?_eq_some_iff.mp hv
    cases heq
    refine ⟨rfl, .inr ⟨rfl, ?_⟩⟩
    simp only [List.length_eraseIdx_of_lt hlt]
    omega

-- ============================================================ counting

theorem waiting_wait (c : CondVar ω) (w : ω) :
    (c.wait w).waiting = c.waiting + 1 := by
  unfold waiting wait awake
  simp only [List.length_append, List.length_singleton]
  omega

theorem waiting_notify (c : CondVar ω) (pick : Nat) :
    (c.notify pick).waiting = c.waiting := by
  obtain ⟨-, heq⟩ | ⟨hp, hn, hw⟩ := c.notify_cases pick
  · rw [heq]
  · unfold waiting awake
    rw [hn, hw]
    omega

theorem awake_notify_le (c : CondVar ω) (pick : Nat) :
    (c.notify pick).awake ≤ c.awake + 1 := by
  obtain ⟨-, heq⟩ | ⟨-, hn, hw⟩ := c.notify_cases pick
  · rw [heq]
    exact Nat.le_succ _
  · unfold awake
    rw [hn, hw]
    omega

theorem waiting_notifyAll (c : CondVar ω) :
    c.notifyAll.waiting = c.waiting := by
  unfold waiting notifyAll awake
  simp only [List.length_nil, List.length_append]
  omega

theorem waiting_wakeup (c : CondVar ω) (k : Nat) :
    (c.wakeup k).waiting = c.waiting := by
  obtain heq | ⟨hp, hn, hw⟩ := c.wakeup_cases k
  · rw [heq]
  · unfold waiting awake
    rw [hn, hw]
    omega

theorem awake_resume (h : c.resume k = some (w, c')) :
    c'.awake + 1 = c.awake := by
  obtain ⟨-, ⟨hn, hw⟩ | ⟨hn, hw⟩⟩ := resume_cases h
  · unfold awake
    rw [hw]
    omega
  · unfold awake
    rw [hn]
    omega

theorem waiting_resume (h : c.resume k = some (w, c')) :
    c'.waiting + 1 = c.waiting := by
  have hawake := awake_resume h
  unfold waiting
  rw [(resume_cases h).1]
  omega

/-- With nobody parked a `notify` is lost. -/
theorem notify_of_nil (h : c.parked = []) (pick : Nat) :
    c.notify pick = c := by
  obtain ⟨-, heq⟩ | ⟨hp, -, -⟩ := c.notify_cases pick
  · exact heq
  · rw [h] at hp
    cases hp

/-- Someone is awake, and gets the mutex. -/
theorem resume_zero (h : 0 < c.awake) : ∃ w c', c.resume 0 = some (w, c') := by
  unfold resume
  cases hn : c.notified with
  | cons w rest => exact ⟨w, _, rfl⟩
  | nil =>
      cases hw : c.woken with
      | cons w rest => exact ⟨w, _, rfl⟩
      | nil =>
          unfold awake at h
          rw [hn, hw] at h
          cases h

-- ====================================================== being served

/-- While someone is parked there is a notified waiter for each of the
`r` pieces. -/
def Served (c : CondVar ω) (r : Nat) : Prop :=
  c.parked ≠ [] → r ≤ c.notified.length

theorem Served.wait (w : ω) : (c.wait w).Served 0 := fun _ => Nat.zero_le _

/-- A piece less. -/
theorem Served.mono {r' : Nat} (h : c.Served r) (hr : r' ≤ r) :
    c.Served r' :=
  fun hp => Nat.le_trans hr (h hp)

/-- A piece more, and a `notify`. -/
theorem Served.notify (h : c.Served r) (pick : Nat) :
    (c.notify pick).Served (r + 1) := by
  obtain ⟨hnil, heq⟩ | ⟨hp, hn, -⟩ := c.notify_cases pick
  · rw [heq]
    exact fun hne => absurd hnil hne
  · intro _
    have hpos : c.parked ≠ [] := List.ne_nil_of_length_pos (by omega)
    have hr := h hpos
    omega

theorem Served.wakeup (h : c.Served r) (k : Nat) : (c.wakeup k).Served r := by
  obtain heq | ⟨hp, hn, -⟩ := c.wakeup_cases k
  · rw [heq]
    exact h
  · intro _
    rw [hn]
    exact h (List.ne_nil_of_length_pos (by omega))

/-- A waiter that is back takes a piece, unless there is none. -/
theorem Served.resume (h : c.Served r) (hc : c.resume k = some (w, c')) :
    c'.Served (r - 1) := by
  obtain ⟨hp, hcases⟩ := resume_cases hc
  intro hne
  rw [hp] at hne
  have hr := h hne
  obtain ⟨hn, -⟩ | ⟨hn, -⟩ := hcases
  · omega
  · rw [hn]
    omega

/-- With pieces left, somebody who is parked does not wait alone. -/
theorem Served.notified_ne_nil (h : c.Served r) (hr : 0 < r)
    (hp : c.parked ≠ []) : c.notified ≠ [] :=
  List.ne_nil_of_length_pos (Nat.lt_of_lt_of_le hr (h hp))

-- ========================================================== who waits

def waiters (c : CondVar ω) : List ω := c.parked ++ (c.notified ++ c.woken)

theorem waiters_wait (c : CondVar ω) (w : ω) :
    (c.wait w).waiters.Perm (w :: c.waiters) := by
  unfold waiters wait
  rw [List.append_assoc]
  exact List.perm_middle

theorem waiters_notify (c : CondVar ω) (pick : Nat) :
    (c.notify pick).waiters.Perm c.waiters := by
  unfold notify
  split
  next w hw =>
    obtain ⟨hlt, rfl⟩ := List.getElem?_eq_some_iff.1 hw
    unfold waiters
    rw [List.append_assoc]
    refine ((List.perm_append_comm_assoc ..).append_left _).trans ?_
    rw [List.singleton_append]
    refine List.perm_middle.trans ?_
    rw [← List.cons_append]
    exact (List.getElem_cons_eraseIdx_perm hlt).append_right _
  next => exact .refl _

theorem waiters_wakeup (c : CondVar ω) (k : Nat) :
    (c.wakeup k).waiters.Perm c.waiters := by
  unfold wakeup
  split
  next w hw =>
    obtain ⟨hlt, rfl⟩ := List.getElem?_eq_some_iff.1 hw
    unfold waiters
    rw [← List.append_assoc c.notified]
    refine (List.perm_append_comm.append_left _).trans ?_
    rw [List.singleton_append]
    refine List.perm_middle.trans ?_
    rw [← List.cons_append]
    exact (List.getElem_cons_eraseIdx_perm hlt).append_right _
  next => exact .refl _

theorem waiters_resume (h : c.resume k = some (w, c')) :
    c.waiters.Perm (w :: c'.waiters) := by
  unfold resume at h
  split at h
  next v hv =>
    obtain ⟨hlt, rfl⟩ := List.getElem?_eq_some_iff.1 hv
    cases h
    unfold waiters
    refine .trans ?_ List.perm_middle
    rw [← List.cons_append]
    exact ((List.getElem_cons_eraseIdx_perm hlt).symm.append_right _).append_left
      _
  next =>
    obtain ⟨v, hv, heq⟩ := Option.map_eq_some_iff.1 h
    obtain ⟨hlt, rfl⟩ := List.getElem?_eq_some_iff.1 hv
    cases heq
    unfold waiters
    rw [← List.append_assoc, ← List.append_assoc]
    refine .trans ?_ List.perm_middle
    exact (List.getElem_cons_eraseIdx_perm hlt).symm.append_left _

-- ==================================================== who is coming back

def returning (c : CondVar ω) : List ω := c.notified ++ c.woken

/-- The one that is picked comes back. -/
theorem returning_notify {pick : Nat}
    (h : c.parked[pick % c.parked.length]? = some w) :
    (c.notify pick).parked = c.parked.eraseIdx (pick % c.parked.length)
      ∧ (c.notify pick).returning.Perm (w :: c.returning) := by
  unfold notify
  rw [h]
  refine ⟨rfl, ?_⟩
  unfold returning
  rw [List.append_assoc]
  exact List.perm_middle

/-- Nobody is picked. -/
theorem notify_of_none {pick : Nat}
    (h : c.parked[pick % c.parked.length]? = none) : c.notify pick = c := by
  unfold notify
  rw [h]

theorem returning_notifyAll (c : CondVar ω) :
    c.notifyAll.returning.Perm (c.parked ++ c.returning) := by
  unfold notifyAll returning
  rw [← List.append_assoc]
  exact List.perm_append_comm.append_right _

/-- The one that wakes up for no reason comes back. -/
theorem returning_wakeup (h : c.parked[k]? = some w) :
    (c.wakeup k).parked = c.parked.eraseIdx k
      ∧ (c.wakeup k).returning.Perm (w :: c.returning) := by
  unfold wakeup
  rw [h]
  refine ⟨rfl, ?_⟩
  unfold returning
  rw [← List.append_assoc]
  exact List.perm_append_comm

theorem wakeup_of_none (h : c.parked[k]? = none) : c.wakeup k = c := by
  unfold wakeup
  rw [h]

/-- Each of them gets the mutex, in some turn. -/
theorem exists_resume (h : w ∈ c.returning) :
    ∃ k c', c.resume k = some (w, c') ∧ c'.parked = c.parked
      ∧ c.returning.Perm (w :: c'.returning) := by
  rcases List.mem_append.1 h with hw | hw
  · obtain ⟨k, hk⟩ := List.mem_iff_getElem?.1 hw
    obtain ⟨hlt, rfl⟩ := List.getElem?_eq_some_iff.1 hk
    refine ⟨k, { c with notified := c.notified.eraseIdx k }, ?_, rfl, ?_⟩
    · unfold resume
      rw [hk]
    · exact (List.getElem_cons_eraseIdx_perm hlt).symm.append_right c.woken
  · obtain ⟨k, hk⟩ := List.mem_iff_getElem?.1 hw
    obtain ⟨hlt, rfl⟩ := List.getElem?_eq_some_iff.1 hk
    refine ⟨c.notified.length + k, { c with woken := c.woken.eraseIdx k }, ?_,
      rfl, ?_⟩
    · unfold resume
      rw [List.getElem?_eq_none (Nat.le_add_right ..), Nat.add_sub_cancel_left, hk]
      rfl
    · refine .trans ?_ List.perm_middle
      exact (List.getElem_cons_eraseIdx_perm hlt).symm.append_left c.notified

-- ============================================================ other names

variable {ω' : Type*} (f : ω → ω')

/-- The same waiters under other names. -/
def map (c : CondVar ω) : CondVar ω' :=
  ⟨c.parked.map f, c.notified.map f, c.woken.map f⟩

theorem map_wait (c : CondVar ω) (w : ω) :
    (c.wait w).map f = (c.map f).wait (f w) := by
  unfold map wait
  rw [List.map_append]
  rfl

theorem map_notify (c : CondVar ω) (pick : Nat) :
    (c.notify pick).map f = (c.map f).notify pick := by
  unfold notify map
  simp only [List.length_map, List.getElem?_map]
  cases c.parked[pick % c.parked.length]? with
  | none => rfl
  | some w =>
      simp only [Option.map_some, List.eraseIdx_map, List.map_append,
        List.map_cons, List.map_nil]

theorem map_wakeup (c : CondVar ω) (k : Nat) :
    (c.wakeup k).map f = (c.map f).wakeup k := by
  unfold wakeup map
  simp only [List.getElem?_map]
  cases c.parked[k]? with
  | none => rfl
  | some w =>
      simp only [Option.map_some, List.eraseIdx_map, List.map_append,
        List.map_cons, List.map_nil]

theorem map_resume (c : CondVar ω) (k : Nat) :
    (c.map f).resume k = (c.resume k).map fun p => (f p.1, p.2.map f) := by
  unfold resume map
  simp only [List.getElem?_map, List.length_map]
  cases c.notified[k]? with
  | some w => simp only [Option.map_some, List.eraseIdx_map]
  | none =>
      simp only [Option.map_none]
      cases c.woken[k - c.notified.length]? with
      | some w => simp only [Option.map_some, List.eraseIdx_map]
      | none => rfl

theorem served_map {c : CondVar ω} {r : Nat} :
    (c.map f).Served r ↔ c.Served r := by
  unfold Served map
  rw [List.length_map, ne_eq, List.map_eq_nil_iff]

end CondVar

end Monitor
