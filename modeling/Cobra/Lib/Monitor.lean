/-
Monitors at the grain of their critical sections: what the threads share
is a value and some condition variables, and a section is one step.

# A section

A section waits on its condition variable until it is ready, then runs
its statements, each of which may fail an assertion, and ends with a
signal. `enter` is a thread that gets the mutex for a new call, `resume`
one that gets it back; which parked waiter a `notify` picks is an
argument of the step, and so are wakeups for no reason.

A waiter is a thread with the call it is in: one thread waits for one
thing at a time, but nothing here depends on that.
-/
import Cobra.Lib.CondVar
import Cobra.Lib.Machine
import Mathlib.Logic.Function.Basic

namespace Monitor

open Machine

/-- What a section does for those who wait. -/
inductive Signal (κ : Type)
  | none
  | notify (c : κ)
  | notifyAll (c : κ)
  deriving Repr, DecidableEq

structure Section (σ κ ε : Type) where
  /-- what it waits on -/
  cond : κ
  ready : σ → Bool
  body : List (σ → Except ε σ)
  signal : σ → Signal κ

variable {σ κ ε τ Op : Type}

/-- The statements, one after the other. -/
def statements (body : List (σ → Except ε σ)) (s : σ) : Except ε σ :=
  body.foldlM (fun s f => f s) s

/-- One statement more. -/
theorem statements_take_succ {body : List (σ → Except ε σ)} {n : Nat}
    {f : σ → Except ε σ} (h : body[n]? = some f) (s : σ) :
    statements (body.take (n + 1)) s = statements (body.take n) s >>= f := by
  obtain ⟨hlt, rfl⟩ := List.getElem?_eq_some_iff.1 h
  rw [List.take_succ_eq_append_getElem hlt]
  unfold statements
  simp only [List.foldlM_append, List.foldlM_cons, List.foldlM_nil, bind_pure]

/-- A statement that fails ends the section, whatever comes after it. -/
theorem statements_error {body : List (σ → Except ε σ)} {n : Nat}
    {f : σ → Except ε σ} {s s' : σ} {e : ε} (h : body[n]? = some f)
    (hs : statements (body.take n) s = .ok s') (hf : f s' = .error e) :
    statements body s = .error e := by
  have htake : statements (body.take (n + 1)) s = .error e := by
    rw [statements_take_succ h, hs]
    exact hf
  rw [← List.take_append_drop (n + 1) body]
  unfold statements at htake ⊢
  rw [List.foldlM_append, htake]
  rfl

-- ============================================================ the machine

structure Sections (σ κ τ Op : Type) where
  data : σ
  conds : κ → CondVar (τ × Op)

inductive SectionsAct (κ τ Op : Type)
  | enter (t : τ) (o : Op) (pick : Nat)
  /-- the `k`-th of those awake gets the mutex back -/
  | resume (c : κ) (k pick : Nat)
  | wakeup (c : κ) (k : Nat)
  deriving Repr, DecidableEq

namespace Sections

variable [DecidableEq κ]

def init (s : σ) : Sections σ κ τ Op := ⟨s, fun _ => .empty⟩

def setCond (m : Sections σ κ τ Op) (c : κ) (v : CondVar (τ × Op)) :
    Sections σ κ τ Op :=
  { m with conds := Function.update m.conds c v }

def signal (m : Sections σ κ τ Op) (pick : Nat) : Signal κ → Sections σ κ τ Op
  | .none => m
  | .notify c => m.setCond c ((m.conds c).notify pick)
  | .notifyAll c => m.setCond c (m.conds c).notifyAll

/-- The section of a thread that has the mutex. -/
def exec (sec : Op → Section σ κ ε) (m : Sections σ κ τ Op) (w : τ × Op)
    (pick : Nat) : Except ε (Sections σ κ τ Op) :=
  if (sec w.2).ready m.data then do
    let s ← statements (sec w.2).body m.data
    .ok ({ m with data := s }.signal pick ((sec w.2).signal s))
  else .ok (m.setCond (sec w.2).cond ((m.conds (sec w.2).cond).wait w))

def step (sec : Op → Section σ κ ε) (m : Sections σ κ τ Op) :
    SectionsAct κ τ Op → Except ε (Sections σ κ τ Op)
  | .enter t o pick => m.exec sec (t, o) pick
  | .resume c k pick =>
      match (m.conds c).resume k with
      | some (w, v) => (m.setCond c v).exec sec w pick
      | none => .ok m
  | .wakeup c k => .ok (m.setCond c ((m.conds c).wakeup k))

end Sections

end Monitor
