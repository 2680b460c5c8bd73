/-
Runs of a machine whose steps may fail an assertion, and the rules the
developments above prove their run theorems with.

# The shape of a machine

A machine is a step function `σ → α → Except ε σ`: `.ok` is the state
after the step, `.error` the assertion that stopped the process. An
action the environment cannot take in a state is one the step function
leaves the state alone on, so a run is a run over ANY list of actions
and no run theorem carries an enabledness hypothesis.

# The rules

- `Holds`: an assert-checked computation returns, and what it returns
  meets a postcondition. `holds_bind` chains it through a `do` block,
  `holds_require` discharges an assertion.
- `run_safe` and `run_inv`: an invariant that every step keeps holds
  after every run. The first also says the run never fails.
- `Along`: a condition met by every step of a run. The rules take it, so
  a result that only holds on the runs avoiding some step is an
  induction like any other.
- `along_congr`: two conditions met along the same runs, because they
  agree wherever a run can get.
- `run_exact`: a condition whose violation can be seen in the end. It
  turns `run_safe` into an equivalence, and `run_exact_of_ok` does it for
  `run_inv`.
- `both` and `InStep`: two machines driven by the same actions.
- `Answers` and `run_simulates`: a machine that a coarser one keeps up
  with, in any number of its own steps for each.
- `AtEach`: a property of every entry of a log, with what precedes it and
  what follows it; `atEach_snoc` is what it takes to log one more.
-/
import Mathlib.Data.List.Basic

namespace Machine

variable {σ α ε : Type*}

-- ========================================================== assertions

/-- An assertion: go on if `p` holds, stop with `e` if it does not. -/
def require (p : Prop) [Decidable p] (e : ε) : Except ε Unit :=
  if p then .ok () else .error e

/-- Take the step only under the condition. -/
def guarded (b : Bool) (f : σ → Except ε σ) (s : σ) : Except ε σ :=
  if b then f s else .ok s

theorem guarded_true {b : Bool} {f : σ → Except ε σ} {s : σ} (h : b = true) :
    guarded b f s = f s := by
  unfold guarded
  rw [h]
  rfl

theorem guarded_false {b : Bool} {f : σ → Except ε σ} {s : σ}
    (h : b = false) : guarded b f s = .ok s := by
  unfold guarded
  rw [h]
  rfl

/-- What holds before a guarded step and after the step holds after it. -/
theorem guarded_inv {b : Bool} {f : σ → Except ε σ} {s s' : σ} {P : σ → Prop}
    (hs : P s) (hf : f s = .ok s' → P s') (h : guarded b f s = .ok s') :
    P s' := by
  unfold guarded at h
  split at h
  · exact hf h
  · cases h
    exact hs

/-- The computation returns, and its result meets `Q`. -/
def Holds {β : Type*} (x : Except ε β) (Q : β → Prop) : Prop :=
  ∃ b, x = .ok b ∧ Q b

/-- `Holds`, evaluated. -/
instance {β : Type*} {x : Except ε β} {Q : β → Prop} [DecidablePred Q] :
    Decidable (Holds x Q) :=
  match x with
  | .ok b => decidable_of_iff (Q b)
      ⟨fun h => ⟨b, rfl, h⟩, fun ⟨_, hb, h⟩ => Except.ok.inj hb ▸ h⟩
  | .error _ => .isFalse fun ⟨_, hb, _⟩ => nomatch hb

section Holds

variable {β γ : Type} {x : Except ε β} {f : β → Except ε γ}
  {Q : β → Prop} {R : γ → Prop}

@[simp] theorem ok_bind (b : β) (f : β → Except ε γ) :
    ((.ok b : Except ε β) >>= f) = f b := rfl

theorem holds_ok {b : β} (h : Q b) : Holds (.ok b : Except ε β) Q :=
  ⟨b, rfl, h⟩

theorem holds_bind (hx : Holds x Q) (hf : ∀ b, Q b → Holds (f b) R) :
    Holds (x >>= f) R := by
  obtain ⟨b, rfl, hb⟩ := hx
  exact hf b hb

theorem holds_mono {Q' : β → Prop} (hx : Holds x Q)
    (h : ∀ b, Q b → Q' b) : Holds x Q' := by
  obtain ⟨b, hb, hQ⟩ := hx
  exact ⟨b, hb, h b hQ⟩

/-- What is known of the result is true of the result. -/
theorem Holds.of_ok {b : β} (hx : Holds x Q) (hb : x = .ok b) : Q b := by
  obtain ⟨b', hb', hQ⟩ := hx
  rw [hb] at hb'
  cases hb'
  exact hQ

theorem require_of {p : Prop} [Decidable p] {e : ε} (hp : p) :
    require p e = .ok () := if_pos hp

theorem require_bind {p : Prop} [Decidable p] {e : ε} (hp : p)
    (g : Unit → Except ε γ) : (require p e >>= g) = g () := by
  rw [require_of hp]
  rfl

/-- An assertion that does not hold ends the computation. -/
theorem require_fail {p : Prop} [Decidable p] {e : ε} (hp : ¬ p)
    (g : Unit → Except ε γ) : (require p e >>= g) = .error e := by
  unfold require
  rw [if_neg hp]
  rfl

theorem holds_require {p : Prop} [Decidable p] {e : ε} (hp : p)
    {g : Unit → Except ε γ} (hg : Holds (g ()) R) :
    Holds (require p e >>= g) R := by
  rw [require_bind hp]
  exact hg

theorem holds_mapError {ε' : Type*} {g : ε → ε'} (hx : Holds x Q) :
    Holds (x.mapError g) Q := by
  obtain ⟨b, rfl, hb⟩ := hx
  exact ⟨b, rfl, hb⟩

theorem mapError_ok_inv {ε' : Type*} {g : ε → ε'} {b : β}
    (h : x.mapError g = .ok b) : x = .ok b := by
  cases x with
  | error e => cases h
  | ok b' =>
      cases h
      rfl

theorem mapError_error_inv {ε' : Type*} {g : ε → ε'} {e : ε'}
    (h : x.mapError g = .error e) : ∃ e', x = .error e' ∧ e = g e' := by
  cases x with
  | error e' =>
      cases h
      exact ⟨e', rfl, rfl⟩
  | ok b => cases h

/-- A successful assertion held. -/
theorem require_inv {p : Prop} [Decidable p] {e : ε} {u : Unit}
    (h : require p e = .ok u) : p := by
  unfold require at h
  split at h
  next hp => exact hp
  next => cases h

/-- A successful bind, taken apart. -/
theorem bind_ok_inv {c : γ} (h : (x >>= f) = .ok c) :
    ∃ b, x = .ok b ∧ f b = .ok c := by
  cases x with
  | error e => cases h
  | ok b => exact ⟨b, rfl, h⟩

/-- A failed assertion fails with its own error. -/
theorem require_error_inv {p : Prop} [Decidable p] {e e' : ε}
    (h : require p e = .error e') : e' = e := by
  unfold require at h
  split at h
  · cases h
  · cases h
    rfl

/-- A failed bind, taken apart. -/
theorem bind_error_inv {e : ε} (h : (x >>= f) = .error e) :
    x = .error e ∨ ∃ b, x = .ok b ∧ f b = .error e := by
  cases x with
  | error e' =>
      cases h
      exact .inl rfl
  | ok b => exact .inr ⟨b, rfl, h⟩

/-- A successful computation, known by a part of its result. -/
theorem map_ok_inv {g : β → γ} {c : γ} (h : x.map g = .ok c) :
    ∃ b, x = .ok b ∧ g b = c := by
  cases x with
  | error e => cases h
  | ok b => exact ⟨b, rfl, Except.ok.inj h⟩

end Holds

-- ================================================================ runs

/-- Run a list of actions, stopping at the first failed assertion. -/
def run (step : σ → α → Except ε σ) (s : σ) : List α → Except ε σ
  | [] => .ok s
  | a :: as =>
      match step s a with
      | .ok s' => run step s' as
      | .error e => .error e

/-- Every step of the run is taken from a state that meets `C`. -/
def Along (step : σ → α → Except ε σ) (C : σ → α → Prop) : σ → List α → Prop
  | _, [] => True
  | s, a :: as => C s a ∧ ∀ s', step s a = .ok s' → Along step C s' as

variable {step : σ → α → Except ε σ} {C : σ → α → Prop}

/-- The first step of a run, when it succeeds. -/
theorem run_cons_ok {s s' : σ} {a : α} (as : List α)
    (h : step s a = .ok s') : run step s (a :: as) = run step s' as := by
  simp only [run, h]

/-- The first step of a run, when it fails. -/
theorem run_cons_error {s : σ} {e : ε} {a : α} (as : List α)
    (h : step s a = .error e) : run step s (a :: as) = .error e := by
  simp only [run, h]

/-- A successful run starts with a successful step. -/
theorem run_cons_inv {s t : σ} {a : α} {as : List α}
    (h : run step s (a :: as) = .ok t) :
    ∃ s', step s a = .ok s' ∧ run step s' as = .ok t := by
  cases hs : step s a with
  | error e =>
      rw [run_cons_error as hs] at h
      cases h
  | ok s' =>
      rw [run_cons_ok as hs] at h
      exact ⟨s', rfl, h⟩

/-- A run of one step. -/
theorem run_singleton (s : σ) (a : α) : run step s [a] = step s a := by
  cases h : step s a with
  | ok s' => exact run_cons_ok [] h
  | error e => exact run_cons_error [] h

/-- A run in two parts. -/
theorem run_append {s t : σ} {as : List α} (bs : List α)
    (h : run step s as = .ok t) : run step s (as ++ bs) = run step t bs := by
  induction as generalizing s with
  | nil =>
      cases h
      rfl
  | cons a as ih =>
      obtain ⟨s', hs, hrest⟩ := run_cons_inv h
      rw [List.cons_append, run_cons_ok _ hs]
      exact ih hrest

/-- A run of a machine through its actions of one kind. -/
theorem run_map {β : Type*} (f : β → α) (s : σ) (bs : List β) :
    run step s (bs.map f) = run (fun s b => step s (f b)) s bs := by
  induction bs generalizing s with
  | nil => rfl
  | cons b bs ih =>
      cases hs : step s (f b) with
      | error e =>
          rw [List.map_cons, run_cons_error _ hs]
          exact (run_cons_error bs hs).symm
      | ok s' =>
          rw [List.map_cons, run_cons_ok _ hs, ih]
          exact (run_cons_ok bs hs).symm

@[simp] theorem along_nil (s : σ) : Along step C s [] := trivial

/-- One step more in front, when it is known where it leads. -/
theorem along_step {s s' : σ} {a : α} {as : List α} (hC : C s a)
    (hs : step s a = .ok s') (h : Along step C s' as) :
    Along step C s (a :: as) := by
  refine ⟨hC, fun t ht => ?_⟩
  rw [hs] at ht
  cases ht
  exact h

/-- A run in two parts. -/
theorem along_append {as bs : List α} : ∀ {s t : σ}, Along step C s as →
    run step s as = .ok t → Along step C t bs → Along step C s (as ++ bs) := by
  induction as with
  | nil =>
      intro s t _ hrun h'
      cases hrun
      exact h'
  | cons a as ih =>
      intro s t h hrun h'
      obtain ⟨s', hok, hrun'⟩ := run_cons_inv hrun
      exact along_step h.1 hok (ih (h.2 s' hok) hrun' h')

/-- One step more at the end of a run. -/
theorem along_snoc {as : List α} {s t : σ} {a : α} (h : Along step C s as)
    (hrun : run step s as = .ok t) (hC : C t a) :
    Along step C s (as ++ [a]) :=
  along_append h hrun ⟨hC, fun _ _ => trivial⟩

/-- A condition the actions meet in every state is met along the run. -/
theorem along_of_mem : ∀ (as : List α) (s : σ),
    (∀ a ∈ as, ∀ s, C s a) → Along step C s as
  | [], _, _ => trivial
  | a :: as, s, h => ⟨h a List.mem_cons_self s, fun s' _ =>
      along_of_mem as s' fun b hb => h b (List.mem_cons_of_mem a hb)⟩

/-- A condition every step meets is met along every run. -/
theorem along_of_forall (h : ∀ s a, C s a) (as : List α) (s : σ) :
    Along step C s as :=
  along_of_mem as s fun a _ s => h s a

/-- `Along`, evaluated. -/
def check (step : σ → α → Except ε σ) (C : σ → α → Prop)
    [∀ s a, Decidable (C s a)] : σ → List α → Bool
  | _, [] => true
  | s, a :: as => decide (C s a) &&
      match step s a with
      | .ok s' => check step C s' as
      | .error _ => true

theorem along_of_check [∀ s a, Decidable (C s a)] :
    ∀ {as : List α} {s : σ}, check step C s as = true → Along step C s as := by
  intro as
  induction as with
  | nil =>
      intro s _
      trivial
  | cons a as ih =>
      intro s h
      simp only [check, Bool.and_eq_true, decide_eq_true_eq] at h
      refine ⟨h.1, fun s' hok => ih ?_⟩
      have hrest := h.2
      rw [hok] at hrest
      exact hrest

/-- The condition is met along the rest of the run, from where a prefix of
it has led. -/
theorem Along.rest {s t : σ} {as bs : List α} (h : Along step C s (as ++ bs))
    (hrun : run step s as = .ok t) : Along step C t bs := by
  induction as generalizing s with
  | nil =>
      cases hrun
      exact h
  | cons b as ih =>
      obtain ⟨s', hok, hrun'⟩ := run_cons_inv hrun
      exact ih (h.2 s' hok) hrun'

/-- The condition holds where a prefix of the run has led. -/
theorem Along.of_run {s t : σ} {a : α} {as : List α} (bs : List α)
    (h : Along step C s (as ++ a :: bs)) (hrun : run step s as = .ok t) :
    C t a :=
  (h.rest hrun).1

/-- Two conditions that agree on every state a run along the second can
reach are met along the same runs. -/
theorem along_congr {P : σ → α → Prop} {I : σ → Prop}
    (hiff : ∀ s a, I s → (P s a ↔ C s a))
    (hstep : ∀ s a s', I s → C s a → step s a = .ok s' → I s') :
    ∀ {as : List α} {s : σ}, I s → (Along step P s as ↔ Along step C s as) := by
  intro as
  induction as with
  | nil =>
      intro s _
      exact iff_of_true trivial trivial
  | cons a as ih =>
      intro s hs
      constructor
      · intro h
        have hC : C s a := (hiff s a hs).1 h.1
        exact ⟨hC, fun s' hok => (ih (hstep s a s' hs hC hok)).1 (h.2 s' hok)⟩
      · intro h
        exact ⟨(hiff s a hs).2 h.1,
          fun s' hok => (ih (hstep s a s' hs h.1 hok)).2 (h.2 s' hok)⟩

/-- Every state a part of the run reaches meets `P`: step by step, every
step leads to one. -/
theorem reached_iff {P : σ → Prop} : ∀ {as : List α} {s : σ}, P s →
    ((∀ pre t, pre <+: as → run step s pre = .ok t → P t)
      ↔ Along step (fun s a => ∀ s', step s a = .ok s' → P s') s as) := by
  intro as
  induction as with
  | nil =>
      intro s hs
      refine iff_of_true (fun pre t hpre hrun => ?_) trivial
      rw [List.prefix_nil.1 hpre] at hrun
      cases hrun
      exact hs
  | cons a as ih =>
      intro s hs
      constructor
      · intro h
        have hfirst : ∀ s', step s a = .ok s' → P s' := by
          intro s' hok
          refine h [a] s' (List.prefix_append [a] as) ?_
          exact run_cons_ok [] hok
        refine ⟨hfirst, fun s' hok => ?_⟩
        refine (ih (hfirst s' hok)).1 (fun pre t hpre hrun => ?_)
        refine h (a :: pre) t (List.cons_prefix_cons.2 ⟨rfl, hpre⟩) ?_
        rw [run_cons_ok pre hok]
        exact hrun
      · intro h pre t hpre hrun
        cases pre with
        | nil =>
            cases hrun
            exact hs
        | cons b pre =>
            obtain ⟨rfl, hpre'⟩ := List.cons_prefix_cons.1 hpre
            obtain ⟨s', hok, hrun'⟩ := run_cons_inv hrun
            exact (ih (h.1 s' hok)).2 (h.2 s' hok) pre t hpre' hrun'

-- ========================================================== invariants

/-- An invariant that every step meeting `C` keeps, and under which no
such step fails, holds after every run along `C`, and the run does not
fail. -/
theorem run_safe {I : σ → Prop}
    (hstep : ∀ s a, I s → C s a → ∃ s', step s a = .ok s' ∧ I s') :
    ∀ {as : List α} {s : σ}, I s → Along step C s as →
      ∃ t, run step s as = .ok t ∧ I t := by
  intro as
  induction as with
  | nil =>
      intro s hs _
      exact ⟨s, rfl, hs⟩
  | cons a as ih =>
      intro s hs hC
      obtain ⟨hCa, hrest⟩ := hC
      obtain ⟨s', hok, hs'⟩ := hstep s a hs hCa
      obtain ⟨t, hrun, ht⟩ := ih hs' (hrest s' hok)
      exact ⟨t, by rw [run_cons_ok as hok]; exact hrun, ht⟩

/-- An invariant that every successful step meeting `C` keeps holds
after every successful run along `C`. -/
theorem run_inv {I : σ → Prop}
    (hstep : ∀ s a s', I s → C s a → step s a = .ok s' → I s') :
    ∀ {as : List α} {s t : σ}, I s → Along step C s as →
      run step s as = .ok t → I t := by
  intro as
  induction as with
  | nil =>
      intro s t hs _ hrun
      cases hrun
      exact hs
  | cons a as ih =>
      intro s t hs hC hrun
      obtain ⟨s', hok, hrun'⟩ := run_cons_inv hrun
      exact ih (hstep s a s' hs hC.1 hok) (hC.2 s' hok) hrun'

/-- `run_inv` with no condition on the steps. -/
theorem run_inv_all {I : σ → Prop}
    (hstep : ∀ s a s', I s → step s a = .ok s' → I s')
    {as : List α} {s t : σ} (hs : I s) (hrun : run step s as = .ok t) :
    I t :=
  run_inv (C := fun _ _ => True)
    (fun s a s' h _ => hstep s a s' h) hs
    (along_of_forall (fun _ _ => trivial) as s) hrun

/-- What is true of the failure of every step along `C` from a state that
meets the invariant is true of the failure of a run. -/
theorem run_error {I : σ → Prop} {Q : ε → Prop}
    (hstep : ∀ s a s', I s → C s a → step s a = .ok s' → I s')
    (herr : ∀ s a e, I s → C s a → step s a = .error e → Q e) :
    ∀ {as : List α} {s : σ} {e : ε}, I s → Along step C s as →
      run step s as = .error e → Q e := by
  intro as
  induction as with
  | nil =>
      intro s e _ _ h
      cases h
  | cons a as ih =>
      intro s e hs hC h
      cases hok : step s a with
      | error e' =>
          rw [run_cons_error as hok] at h
          cases h
          exact herr s a e hs hC.1 hok
      | ok s' =>
          rw [run_cons_ok as hok] at h
          exact ih (hstep s a s' hs hC.1 hok) (hC.2 s' hok) h

/-- When the condition is exact: the steps that meet it keep the
invariant `I`, under which `P` holds; a step that does not meet it fails
or ends `P`, and under the weaker invariant `J` nothing brings `P`
back. -/
theorem run_exact {I J P : σ → Prop}
    (hgood : ∀ s a, I s → C s a → ∃ s', step s a = .ok s' ∧ I s')
    (hbad : ∀ s a s', I s → ¬ C s a → step s a = .ok s' → J s' ∧ ¬ P s')
    (hlost : ∀ s a s', J s → ¬ P s → step s a = .ok s' → J s' ∧ ¬ P s')
    (hP : ∀ s, I s → P s) :
    ∀ {as : List α} {s : σ}, I s →
      ((∃ t, run step s as = .ok t ∧ P t) ↔ Along step C s as) := by
  have hgone : ∀ {as : List α} {s t : σ}, J s ∧ ¬ P s →
      run step s as = .ok t → J t ∧ ¬ P t := by
    intro as s t hs hrun
    exact run_inv_all (I := fun s => J s ∧ ¬ P s)
      (fun s a s' h hok => hlost s a s' h.1 h.2 hok) hs hrun
  intro as
  induction as with
  | nil =>
      intro s hs
      exact iff_of_true ⟨s, rfl, hP s hs⟩ trivial
  | cons a as ih =>
      intro s hs
      by_cases hC : C s a
      · obtain ⟨s', hok, hs'⟩ := hgood s a hs hC
        rw [run_cons_ok as hok, ih hs']
        constructor
        · intro h
          exact along_step hC hok h
        · intro h
          exact h.2 s' hok
      · constructor
        · intro h
          obtain ⟨t, hrun, ht⟩ := h
          obtain ⟨s', hok, hrun'⟩ := run_cons_inv hrun
          exact absurd ht (hgone (hbad s a s' hs hC hok) hrun').2
        · intro h
          exact absurd h.1 hC

/-- `run_exact` for the runs that succeed: steps that meet the condition
keep `I`, one that does not gives `J`, and `J` stays. -/
theorem run_exact_of_ok {I J : σ → Prop}
    (hgood : ∀ s a s', I s → C s a → step s a = .ok s' → I s')
    (hbad : ∀ s a s', I s → ¬ C s a → step s a = .ok s' → J s')
    (hlost : ∀ s a s', J s → step s a = .ok s' → J s')
    (hexcl : ∀ s, J s → ¬ I s) :
    ∀ {as : List α} {s t : σ}, I s → run step s as = .ok t →
      (I t ↔ Along step C s as) := by
  intro as
  induction as with
  | nil =>
      intro s t hs hrun
      cases hrun
      exact iff_of_true hs trivial
  | cons a as ih =>
      intro s t hs hrun
      obtain ⟨s', hok, hrun'⟩ := run_cons_inv hrun
      by_cases hC : C s a
      · rw [ih (hgood s a s' hs hC hok) hrun']
        constructor
        · intro h
          exact along_step hC hok h
        · intro h
          exact h.2 s' hok
      · refine iff_of_false ?_ (fun h => hC h.1)
        exact hexcl t (run_inv_all (I := J) hlost (hbad s a s' hs hC hok) hrun')

-- ======================================================== two machines

section Both

variable {τ : Type*} {f : σ → α → Except ε σ} {g : τ → α → Except ε τ}
  {R : σ → τ → Prop} {s : σ × τ} {a : α}

/-- Two machines on the same actions; the pair stops when one of them
does. -/
def both (f : σ → α → Except ε σ) (g : τ → α → Except ε τ) (s : σ × τ)
    (a : α) : Except ε (σ × τ) :=
  match f s.1 a, g s.2 a with
  | .ok x, .ok y => .ok (x, y)
  | .error e, _ => .error e
  | _, .error e => .error e

/-- The action leaves the two in step: both fail, or neither does and
the states are related. -/
def InStep (f : σ → α → Except ε σ) (g : τ → α → Except ε τ)
    (R : σ → τ → Prop) (s : σ × τ) (a : α) : Prop :=
  match f s.1 a, g s.2 a with
  | .ok x, .ok y => R x y
  | .error _, .error _ => True
  | _, _ => False

theorem both_ok_inv {t : σ × τ} (h : both f g s a = .ok t) :
    f s.1 a = .ok t.1 ∧ g s.2 a = .ok t.2 := by
  unfold both at h
  split at h
  next x y hx hy =>
    cases h
    exact ⟨hx, hy⟩
  next => cases h
  next => cases h

theorem inStep_of_ok {x : σ} {y : τ} (hx : f s.1 a = .ok x)
    (hy : g s.2 a = .ok y) : InStep f g R s a ↔ R x y := by
  unfold InStep
  rw [hx, hy]

theorem not_inStep_of_error {x : σ} {e : ε} (hx : f s.1 a = .ok x)
    (hy : g s.2 a = .error e) : ¬ InStep f g R s a := by
  unfold InStep
  rw [hx, hy]
  exact id

/-- The second computation ends as the first one does: with a related
state, or in the same failed assertion. -/
def Answers (R : σ → τ → Prop) (x : Except ε σ) (y : Except ε τ) : Prop :=
  match x with
  | .ok s => ∃ t, y = .ok t ∧ R s t
  | .error e => y = .error e

theorem Answers.ok {x : σ} {y : τ} (h : R x y) :
    Answers R (.ok x : Except ε σ) (.ok y) := ⟨y, rfl, h⟩

/-- An answer that does not fail is an answer to what did not. -/
theorem Answers.of_ok {x : Except ε σ} {t : τ} (h : Answers R x (.ok t)) :
    ∃ s, x = .ok s ∧ R s t := by
  cases x with
  | error e => cases h
  | ok s =>
      obtain ⟨u, hu, hsu⟩ := h
      cases hu
      exact ⟨s, rfl, hsu⟩

/-- An answer to the answer. -/
theorem Answers.comp {υ : Type*} {R' : τ → υ → Prop} {x : Except ε σ}
    {y : Except ε τ} {z : Except ε υ} (h : Answers R x y)
    (h' : Answers R' y z) :
    Answers (fun s u => ∃ t, R s t ∧ R' t u) x z := by
  cases x with
  | error e =>
      rw [show y = .error e from h] at h'
      exact h'
  | ok s =>
      obtain ⟨t, rfl, hst⟩ := h
      obtain ⟨u, hu, htu⟩ := h'
      exact ⟨u, hu, t, hst, htu⟩

/-- Every step of the first machine is answered by steps of the second, so
every run is answered by a run. -/
theorem run_simulates {β : Type*} {g : τ → β → Except ε τ}
    (hstep : ∀ s t a, R s t → ∃ bs, Answers R (step s a) (run g t bs)) :
    ∀ (as : List α) {s : σ} {t : τ}, R s t →
      ∃ bs, Answers R (run step s as) (run g t bs) := by
  intro as
  induction as with
  | nil =>
      intro s t h
      exact ⟨[], t, rfl, h⟩
  | cons a as ih =>
      intro s t h
      obtain ⟨bs, hbs⟩ := hstep s t a h
      cases hs : step s a with
      | error e =>
          rw [hs] at hbs
          refine ⟨bs, ?_⟩
          rw [run_cons_error as hs]
          exact hbs
      | ok s' =>
          rw [hs] at hbs
          obtain ⟨t', ht, h'⟩ := hbs
          obtain ⟨cs, hcs⟩ := ih h'
          refine ⟨bs ++ cs, ?_⟩
          rw [run_cons_ok as hs, run_append cs ht]
          exact hcs

end Both

-- ================================================================ logs

/-- `P` holds at every entry of the log: of what was logged before it,
of the entry, and of what was logged after it. -/
def AtEach {ω : Type*} (P : List ω → ω → List ω → Prop) (l : List ω) : Prop :=
  ∀ pre o post, l = pre ++ o :: post → P pre o post

section Logs

variable {ω : Type*} {P Q : List ω → ω → List ω → Prop} {l : List ω}

theorem atEach_nil : AtEach P [] := by
  intro pre o post h
  cases pre <;> cases h

theorem AtEach.imp (h : AtEach P l)
    (himp : ∀ pre o post, P pre o post → Q pre o post) : AtEach Q l :=
  fun pre o post hl => himp pre o post (h pre o post hl)

/-- One entry more: it follows every old one, and nothing follows it. -/
theorem atEach_snoc {o : ω} :
    AtEach P (l ++ [o])
      ↔ AtEach (fun pre x post => P pre x (post ++ [o])) l ∧ P l o [] := by
  constructor
  · intro h
    refine ⟨fun pre x post hl => h pre x (post ++ [o]) ?_, h l o [] rfl⟩
    rw [hl, List.append_assoc, List.cons_append]
  · intro h pre x post hl
    rcases List.eq_nil_or_concat post with rfl | ⟨post', y, rfl⟩
    · obtain ⟨rfl, hx⟩ := List.append_inj' hl rfl
      cases hx
      exact h.2
    · rw [List.concat_eq_append, ← List.cons_append,
        ← List.append_assoc] at hl
      obtain ⟨hl', hy⟩ := List.append_inj' hl rfl
      cases hy
      rw [List.concat_eq_append]
      exact h.1 pre x post' hl'

/-- The first entry taken off: it precedes every other. -/
theorem atEach_cons {o : ω} :
    AtEach P (o :: l)
      ↔ P [] o l ∧ AtEach (fun pre x post => P (o :: pre) x post) l := by
  constructor
  · intro h
    refine ⟨h [] o l rfl, fun pre x post hl => h (o :: pre) x post ?_⟩
    rw [hl, List.cons_append]
  · intro h pre x post hl
    cases pre with
    | nil =>
        obtain ⟨rfl, rfl⟩ := List.cons.inj hl
        exact h.1
    | cons y pre =>
        obtain ⟨rfl, hl'⟩ := List.cons.inj hl
        exact h.2 pre x post hl'

/-- More entries, for a property that does not look ahead. -/
theorem atEach_append {R : List ω → ω → Prop} {new : List ω} :
    AtEach (fun pre o _ => R pre o) (l ++ new)
      ↔ AtEach (fun pre o _ => R pre o) l
        ∧ AtEach (fun pre o _ => R (l ++ pre) o) new := by
  constructor
  · intro h
    refine ⟨fun pre o post hl => ?_, fun pre o post hn => ?_⟩
    · refine h pre o (post ++ new) ?_
      rw [hl, List.append_assoc, List.cons_append]
    · refine h (l ++ pre) o post ?_
      rw [hn, List.append_assoc]
  · intro h pre o post hl
    rcases List.append_eq_append_iff.1 hl with ⟨as, hpre, hnew⟩ | ⟨bs, hl', hb⟩
    · rw [hpre]
      exact h.2 as o post hnew
    · cases bs with
      | nil =>
          rw [List.append_nil] at hl'
          have hx : R (l ++ []) o := h.2 [] o post hb.symm
          rw [List.append_nil, hl'] at hx
          exact hx
      | cons b bs =>
          obtain ⟨rfl, -⟩ := List.cons.inj hb
          exact h.1 pre o bs hl'

end Logs

end Machine
