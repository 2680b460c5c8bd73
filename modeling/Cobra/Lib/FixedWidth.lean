/-
Texts of one width that are ordered as the numbers they stand for, so that
sorting the texts sorts the numbers.

# Shape

`FixedWidth w bound f` is about the numbers below `bound`. A constant text
in front or behind keeps it (`prefixed`, `suffixed`), and the text of a
quotient with that of the remainder behind it is one again (`pair`), so
that a text with several fields is built field by field. The order of the
texts is the lexicographic one of lists.
-/
import Mathlib.Data.List.Basic

/-- The texts of the numbers below `bound`. -/
structure FixedWidth {α : Type*} [LT α] (w bound : Nat) (f : Nat → List α) :
    Prop where
  width : ∀ n < bound, (f n).length = w
  mono : ∀ m n, m < n → n < bound → f m < f n

namespace FixedWidth

variable {α : Type*} [LT α]

/-- What stands behind does not matter once the fronts are different. -/
theorem append_lt_append : ∀ {a b : List α} (c d : List α),
    a.length = b.length → a < b → a ++ c < b ++ d
  | [], [], _, _, _, h => by cases h
  | x :: a, y :: b, c, d, hlen, h => by
      rw [List.cons_append, List.cons_append, List.cons_lt_cons_iff]
      obtain hhead | ⟨rfl, htail⟩ := List.cons_lt_cons_iff.1 h
      · exact .inl hhead
      · exact .inr ⟨rfl, append_lt_append c d (Nat.succ.inj hlen) htail⟩

variable {w w' bound bound' : Nat} {f g : Nat → List α}

theorem prefixed (h : FixedWidth w bound f) (text : List α) :
    FixedWidth (text.length + w) bound fun n => text ++ f n where
  width n hn := by rw [List.length_append, h.width n hn]
  mono m n hlt hn := List.append_left_lt (h.mono m n hlt hn)

theorem suffixed (h : FixedWidth w bound f) (text : List α) :
    FixedWidth (w + text.length) bound fun n => f n ++ text where
  width n hn := by rw [List.length_append, h.width n hn]
  mono m n hlt hn := by
    refine append_lt_append text text ?_ (h.mono m n hlt hn)
    rw [h.width n hn, h.width m (Nat.lt_trans hlt hn)]

/-- A digit in front: the text of the quotient, and that of the
remainder. -/
theorem pair (h : FixedWidth w bound f) (h' : FixedWidth w' bound' g)
    (hpos : 0 < bound') : FixedWidth (w + w') (bound * bound')
      fun n => f (n / bound') ++ g (n % bound') where
  width n hn := by
    rw [List.length_append, h.width _ (Nat.div_lt_of_lt_mul
      (Nat.mul_comm bound bound' ▸ hn)), h'.width _ (Nat.mod_lt n hpos)]
  mono m n hlt hn := by
    have hquot : n / bound' < bound :=
      Nat.div_lt_of_lt_mul (Nat.mul_comm bound bound' ▸ hn)
    have hle : m / bound' ≤ n / bound' :=
      Nat.div_le_div_right (Nat.le_of_lt hlt)
    obtain hless | heq := Nat.lt_or_eq_of_le hle
    · refine append_lt_append _ _ ?_ (h.mono _ _ hless hquot)
      rw [h.width _ hquot, h.width _ (Nat.lt_trans hless hquot)]
    · -- the same quotient, so that the remainders decide
      have hmod : m % bound' < n % bound' := by
        have hm := Nat.div_add_mod m bound'
        have hn := Nat.div_add_mod n bound'
        rw [heq] at hm
        omega
      simp only [heq]
      exact List.append_left_lt (h'.mono _ _ hmod (Nat.mod_lt n hpos))

/-- The order of the texts is that of the numbers. -/
theorem lt_iff [Std.Asymm (· < · : α → α → Prop)]
    (h : FixedWidth w bound f) {m n : Nat} (hm : m < bound) (hn : n < bound) :
    f m < f n ↔ m < n := by
  constructor
  · intro hlt
    by_contra hnot
    obtain hless | rfl := Nat.lt_or_eq_of_le (Nat.not_lt.1 hnot)
    · exact List.lt_asymm hlt (h.mono n m hless hm)
    · exact List.lt_irrefl _ hlt
  · intro hlt
    exact h.mono m n hlt hn

end FixedWidth
