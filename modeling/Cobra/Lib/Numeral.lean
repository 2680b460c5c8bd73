/-
Positional numerals, over any alphabet.

An `Alphabet` has a character for each digit below its base, and reads
them back. `read` is the value of a word of digits, which may have zeros in
front. A word without such zeros is `Canonical`. Each number has exactly
one of them, `numeral n`: a word is the numeral of `n` if and only if it is
canonical and reads `n` (`numeral_iff`).

Both directions follow the last digit: `numeral` puts it behind the
numeral of the quotient, and what was read grows by it
(`readFrom_concat`).
-/
import Mathlib.Data.List.Basic
import Mathlib.Data.List.Induction

namespace Numeral

/-- Characters for the digits below `base`. -/
structure Alphabet (α : Type*) where
  base : Nat
  char : Nat → α
  digit : α → Option Nat
  one_lt_base : 1 < base
  digit_char : ∀ {d}, d < base → digit (char d) = some d
  digit_lt : ∀ {c d}, digit c = some d → d < base
  char_digit : ∀ {c d}, digit c = some d → char d = c

namespace Alphabet

variable {α : Type*} (A : Alphabet α)

/-- The value of a word that goes on behind a numeral of `n`. -/
def readFrom : Nat → List α → Option Nat
  | n, [] => some n
  | n, c :: s => (A.digit c).bind fun d => readFrom (n * A.base + d) s

/-- The value of a word of digits. The empty word has none. -/
def read (s : List α) : Option Nat :=
  if s.isEmpty then none else A.readFrom 0 s

/-- The word has no zero in front of other digits. -/
def Canonical (s : List α) : Prop :=
  s.head? = some (A.char 0) → s = [A.char 0]

instance [DecidableEq α] (s : List α) : Decidable (A.Canonical s) :=
  inferInstanceAs (Decidable (_ → _))

/-- The word of a number. -/
def numeral (n : Nat) : List α :=
  if n < A.base then [A.char n]
  else numeral (n / A.base) ++ [A.char (n % A.base)]
termination_by n
decreasing_by
  have hbase := A.one_lt_base
  exact Nat.div_lt_self (by omega) hbase

variable {A} {s : List α} {c : α} {m n : Nat}

theorem base_pos : 0 < A.base := Nat.lt_trans Nat.zero_lt_one A.one_lt_base

-- ============================================================= reading

theorem readFrom_append (t : List α) :
    A.readFrom n (s ++ t) = (A.readFrom n s).bind fun m => A.readFrom m t := by
  induction s generalizing n with
  | nil => rfl
  | cons c s ih =>
      rw [List.cons_append, readFrom, readFrom]
      cases A.digit c with
      | none => rfl
      | some d => exact ih

/-- One digit more at the end. -/
theorem readFrom_concat (m : Nat) :
    A.readFrom m (s ++ [c]) = some n
      ↔ ∃ k d, A.readFrom m s = some k ∧ A.digit c = some d
        ∧ n = k * A.base + d := by
  rw [readFrom_append]
  constructor
  · intro h
    obtain ⟨k, hk, hlast⟩ := Option.bind_eq_some_iff.1 h
    obtain ⟨d, hd, hn⟩ := Option.bind_eq_some_iff.1 hlast
    exact ⟨k, d, hk, hd, (Option.some.inj hn).symm⟩
  · rintro ⟨k, d, hk, hd, rfl⟩
    rw [hk, Option.bind_some, readFrom, hd]
    rfl

theorem read_of_ne_nil (h : s ≠ []) : A.read s = A.readFrom 0 s :=
  if_neg fun hempty => h (List.isEmpty_iff.1 hempty)

/-- All the characters of a word that has a value are digits. -/
theorem isSome_digit_of_readFrom (h : A.readFrom m s = some n) :
    ∀ c ∈ s, (A.digit c).isSome := by
  induction s generalizing m with
  | nil => exact fun c hc => absurd hc List.not_mem_nil
  | cons c s ih =>
      obtain ⟨d, hd, hrest⟩ := Option.bind_eq_some_iff.1 h
      intro x hx
      obtain rfl | hx := List.mem_cons.1 hx
      · rw [hd]
        rfl
      · exact ih hrest x hx

-- ============================================================= writing

theorem numeral_of_lt (h : n < A.base) : A.numeral n = [A.char n] := by
  rw [numeral, if_pos h]

theorem numeral_of_le (h : A.base ≤ n) :
    A.numeral n = A.numeral (n / A.base) ++ [A.char (n % A.base)] := by
  rw [numeral, if_neg (Nat.not_lt.2 h)]

theorem numeral_ne_nil : A.numeral n ≠ [] := by
  rw [numeral]
  split
  · exact List.cons_ne_nil _ _
  · exact List.concat_ne_nil _ _

theorem readFrom_numeral : A.readFrom 0 (A.numeral n) = some n := by
  induction n using Nat.strongRecOn with
  | ind n ih =>
      by_cases hlt : n < A.base
      · rw [numeral_of_lt hlt, readFrom, A.digit_char hlt, Option.bind_some,
          Nat.zero_mul, Nat.zero_add]
        rfl
      · have hle := Nat.le_of_not_lt hlt
        have hpos := A.base_pos
        rw [numeral_of_le hle]
        refine (readFrom_concat 0).2 ⟨n / A.base, n % A.base, ?_, ?_, ?_⟩
        · exact ih _ (Nat.div_lt_self (by omega) A.one_lt_base)
        · exact A.digit_char (Nat.mod_lt _ hpos)
        · exact (Nat.div_add_mod' n A.base).symm

theorem read_numeral : A.read (A.numeral n) = some n := by
  rw [read_of_ne_nil numeral_ne_nil, readFrom_numeral]

/-- The first digit of a number is no zero, unless the number is. -/
theorem head?_numeral (h : 0 < n) : (A.numeral n).head? ≠ some (A.char 0) := by
  induction n using Nat.strongRecOn with
  | ind n ih =>
      by_cases hlt : n < A.base
      · rw [numeral_of_lt hlt]
        intro hhead
        have hdigit := congrArg A.digit (Option.some.inj hhead)
        rw [A.digit_char hlt, A.digit_char A.base_pos] at hdigit
        exact Nat.ne_of_gt h (Option.some.inj hdigit)
      · have hle := Nat.le_of_not_lt hlt
        rw [numeral_of_le hle, List.head?_append_of_ne_nil _ numeral_ne_nil]
        exact ih _ (Nat.div_lt_self h A.one_lt_base)
          (Nat.div_pos hle A.base_pos)

theorem canonical_numeral : A.Canonical (A.numeral n) := by
  intro hhead
  rcases Nat.eq_zero_or_pos n with rfl | hpos
  · exact numeral_of_lt A.base_pos
  · exact absurd hhead (head?_numeral hpos)

/-- The numerals of the core library, written with the characters of the
alphabet. -/
theorem map_toDigits (f : Char → α)
    (hf : ∀ d, d < A.base → f (Nat.digitChar d) = A.char d) (n : Nat) :
    (Nat.toDigits A.base n).map f = A.numeral n := by
  induction n using Nat.strongRecOn with
  | ind n ih =>
      by_cases hlt : n < A.base
      · rw [Nat.toDigits_of_lt_base hlt, numeral_of_lt hlt, ← hf n hlt]
        rfl
      · have hle := Nat.le_of_not_lt hlt
        have hpos := A.base_pos
        rw [Nat.toDigits_of_base_le A.one_lt_base hle, numeral_of_le hle,
          List.map_append, ih _ (Nat.div_lt_self (by omega) A.one_lt_base),
          ← hf _ (Nat.mod_lt _ hpos)]
        rfl

-- ========================================================== uniqueness

/-- What is canonical and reads `n` is the numeral of `n`. -/
theorem eq_numeral (hread : A.read s = some n) (hs : A.Canonical s) :
    s = A.numeral n := by
  induction s using List.reverseRecOn generalizing n with
  | nil => cases hread
  | append_singleton s c ih =>
      rw [read_of_ne_nil (List.concat_ne_nil _ _)] at hread
      obtain ⟨m, d, hm, hd, rfl⟩ := (readFrom_concat 0).1 hread
      have hlt := A.digit_lt hd
      rw [← A.char_digit hd]
      rcases eq_or_ne s [] with rfl | hne
      · cases hm
        rw [Nat.zero_mul, Nat.zero_add, numeral_of_lt hlt]
        rfl
      · -- the digits in front begin with no zero, for there is one behind them
        have hhead : s.head? ≠ some (A.char 0) := by
          intro hzero
          have hall := hs ((List.head?_append_of_ne_nil _ hne).trans hzero)
          have hlen := congrArg List.length hall
          rw [List.length_append, List.length_singleton,
            List.length_singleton] at hlen
          exact hne (List.length_eq_zero_iff.1 (by omega))
        have hs' : s = A.numeral m :=
          ih ((read_of_ne_nil hne).trans hm) fun h => absurd h hhead
        have hpos : 0 < m := by
          rcases Nat.eq_zero_or_pos m with rfl | hpos
          · rw [hs', numeral_of_lt A.base_pos] at hhead
            exact absurd rfl hhead
          · exact hpos
        obtain ⟨hdiv, hmod⟩ := (Nat.div_mod_unique A.base_pos).2
          ⟨(by rw [Nat.mul_comm, Nat.add_comm] : d + A.base * m = _), hlt⟩
        have hge : A.base ≤ m * A.base + d :=
          Nat.le_trans (Nat.le_mul_of_pos_left _ hpos) (Nat.le_add_right ..)
        rw [numeral_of_le hge, hdiv, hmod, ← hs']

/-- The one word of a number. -/
theorem numeral_iff :
    A.read s = some n ∧ A.Canonical s ↔ s = A.numeral n := by
  constructor
  · rintro ⟨hread, hs⟩
    exact eq_numeral hread hs
  · rintro rfl
    exact ⟨read_numeral, canonical_numeral⟩

end Alphabet

end Numeral
