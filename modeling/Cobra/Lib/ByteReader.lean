/-
Reading a sequence of bytes by a program that may stop half-way, with an
output that it fills in on the way.

# Shape

A reader is a state monad over the bytes that are left and the output. It
stops with an error; the output is then what it was at that moment, which
is what an exception leaves behind in a result passed by reference.

# The rules

- `Decodes r enc P`: `r` reads exactly the encodings of the values that
  meet `P`, and leaves the output alone. Both directions are part of it:
  an encoding is read back, and what is read was an encoding.
  `Decodes.times` is the rule for a loop.
- `Keeps r f`: however `r` ends, `f` of the output is as before.
-/
import Mathlib.Data.List.Basic

namespace ByteReader

variable {ε σ α β γ : Type}

/-- The bytes left, and the output so far. -/
structure Cursor (σ : Type) where
  rest : List UInt8
  out : σ
  deriving Repr, DecidableEq

abbrev Reader (ε σ α : Type) := EStateM ε (Cursor σ) α

/-- `n` times the same. -/
def times (n : Nat) (r : Reader ε σ α) : Reader ε σ (List α) :=
  match n with
  | 0 => pure []
  | n + 1 => do
      let a ← r
      let as ← times n r
      pure (a :: as)

-- =============================================================== sequencing

section Bind

variable {r : Reader ε σ α} {f : α → Reader ε σ β} {c c' c'' : Cursor σ}
  {a : α} {b : β} {e : ε}

theorem bind_ok (h : r c = .ok a c') : (r >>= f) c = f a c' := by
  show EStateM.bind r f c = f a c'
  unfold EStateM.bind
  rw [h]

theorem bind_error (h : r c = .error e c') : (r >>= f) c = .error e c' := by
  show EStateM.bind r f c = .error e c'
  unfold EStateM.bind
  rw [h]

/-- A sequence that comes to its end, taken apart. -/
theorem bind_ok_inv (h : (r >>= f) c = .ok b c'') :
    ∃ a c', r c = .ok a c' ∧ f a c' = .ok b c'' := by
  cases hr : r c with
  | error e c' =>
      rw [bind_error hr] at h
      cases h
  | ok a c' =>
      rw [bind_ok hr] at h
      exact ⟨a, c', rfl, h⟩

end Bind

-- ============================================================== the output

/-- However the reader ends, this much of the output is as before. -/
structure Keeps (r : Reader ε σ α) (f : σ → γ) : Prop where
  ok : ∀ {c a c'}, r c = .ok a c' → f c'.out = f c.out
  error : ∀ {c e c'}, r c = .error e c' → f c'.out = f c.out

section Keeps

variable {r : Reader ε σ α} {g : α → Reader ε σ β} {f : σ → γ}

theorem keeps_pure (a : α) : Keeps (pure a : Reader ε σ α) f := by
  constructor
  · intro c b c' h
    cases h
    rfl
  · intro c e c' h
    cases h

theorem keeps_bind (hr : Keeps r f) (hg : ∀ a, Keeps (g a) f) :
    Keeps (r >>= g) f := by
  constructor
  · intro c b c'' h
    obtain ⟨a, c', hfirst, hrest⟩ := bind_ok_inv h
    exact ((hg a).ok hrest).trans (hr.ok hfirst)
  · intro c e c'' h
    cases hfirst : r c with
    | error e' c' =>
        rw [bind_error hfirst] at h
        cases h
        exact hr.error hfirst
    | ok a c' =>
        rw [bind_ok hfirst] at h
        exact ((hg a).error h).trans (hr.ok hfirst)

theorem keeps_times (hr : Keeps r f) (n : Nat) : Keeps (times n r) f := by
  induction n with
  | zero => exact keeps_pure []
  | succ n ih =>
      exact keeps_bind hr fun a => keeps_bind ih fun as => keeps_pure (a :: as)

end Keeps

-- =========================================================== the encodings

/-- The reader reads the encodings of the values that meet `P`, and no other
bytes. -/
structure Decodes (r : Reader ε σ α) (enc : α → List UInt8) (P : α → Prop) :
    Prop where
  read : ∀ a rest out, P a → r ⟨enc a ++ rest, out⟩ = .ok a ⟨rest, out⟩
  inv : ∀ {c a c'}, r c = .ok a c' →
    P a ∧ c.rest = enc a ++ c'.rest ∧ c'.out = c.out

section Decodes

variable {r : Reader ε σ α} {enc : α → List UInt8} {P : α → Prop}

/-- A loop reads one encoding after the other. -/
theorem Decodes.times (h : Decodes r enc P) (n : Nat) :
    Decodes (times n r) (fun as => as.flatMap enc)
      (fun as => as.length = n ∧ ∀ a ∈ as, P a) := by
  induction n with
  | zero =>
      constructor
      · rintro as rest out ⟨hlen, -⟩
        rw [List.length_eq_zero_iff.1 hlen]
        rfl
      · intro c as c' hr
        cases hr
        exact ⟨⟨rfl, fun _ hmem => (nomatch hmem)⟩, rfl, rfl⟩
  | succ n ih =>
      constructor
      · rintro as rest out ⟨hlen, hP⟩
        cases as with
        | nil => cases hlen
        | cons a as =>
            have hrest := ih.read as rest out
              ⟨Nat.succ.inj hlen, fun b hb => hP b (List.mem_cons_of_mem a hb)⟩
            rw [List.flatMap_cons, List.append_assoc]
            unfold ByteReader.times
            rw [bind_ok (h.read a _ out (hP a List.mem_cons_self)), bind_ok hrest]
            rfl
      · intro c as c' hr
        obtain ⟨a, c1, hread, hr⟩ := bind_ok_inv hr
        obtain ⟨as', c2, hloop, hr⟩ := bind_ok_inv hr
        cases hr
        obtain ⟨hPa, hbytes, hout⟩ := h.inv hread
        obtain ⟨⟨hlen, hP⟩, hbytes', hout'⟩ := ih.inv hloop
        refine ⟨⟨congrArg Nat.succ hlen, ?_⟩, ?_, hout'.trans hout⟩
        · intro b hb
          obtain rfl | hb := List.mem_cons.1 hb
          · exact hPa
          · exact hP b hb
        · rw [hbytes, hbytes', List.flatMap_cons, List.append_assoc]

end Decodes

end ByteReader
