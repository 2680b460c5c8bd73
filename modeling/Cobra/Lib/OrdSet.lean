/-
Ordered sets as strictly increasing lists: the operations of an ordered
associative container (insert, erase, membership, size, first element,
the range below a key) and their membership and size laws.

The list order IS the iteration order, so "the elements before
`lower_bound(k)`" is a prefix of the list, and copying that range out and
erasing it are `below` and `fromKey`. The invariant is a field, so no
operation can build an unsorted set and no law asks for sortedness.
-/
import Mathlib.Data.List.Sort

/-- A finite set, kept as the strictly increasing list of its elements. -/
structure OrdSet (α : Type*) [LinearOrder α] where
  elems : List α
  sorted : elems.Pairwise (· < ·)

namespace OrdSet

variable {α β : Type*} [LinearOrder α] [LinearOrder β]

-- ====================================================== the operations

def empty : OrdSet α := ⟨[], .nil⟩

instance : Membership α (OrdSet α) := ⟨fun s a => a ∈ s.elems⟩

instance (s : OrdSet α) (a : α) : Decidable (a ∈ s) :=
  inferInstanceAs (Decidable (a ∈ s.elems))

theorem mem_def {s : OrdSet α} {a : α} : a ∈ s ↔ a ∈ s.elems := Iff.rfl

theorem nodup (s : OrdSet α) : s.elems.Nodup :=
  s.sorted.imp fun h => ne_of_lt h

def size (s : OrdSet α) : Nat := s.elems.length

/-- Inserting an absent element keeps the list strictly increasing. -/
theorem sorted_orderedInsert {l : List α} {a : α}
    (hl : l.Pairwise (· < ·)) (ha : a ∉ l) :
    (l.orderedInsert (· ≤ ·) a).Pairwise (· < ·) := by
  induction l with
  | nil => simp
  | cons b l ih =>
      obtain ⟨hb, hl'⟩ := List.pairwise_cons.1 hl
      obtain ⟨hne, ha'⟩ := not_or.1 (mt List.mem_cons.2 ha)
      rw [List.orderedInsert_cons]
      split
      next hab =>
        have hlt : a < b := lt_of_le_of_ne hab hne
        refine List.pairwise_cons.2 ⟨fun c hc => ?_, hl⟩
        rcases List.mem_cons.1 hc with rfl | hc
        · exact hlt
        · exact hlt.trans (hb c hc)
      next hab =>
        refine List.pairwise_cons.2 ⟨fun c hc => ?_, ih hl' ha'⟩
        rcases (List.mem_orderedInsert (· ≤ ·)).1 hc with rfl | hc
        · exact not_le.1 hab
        · exact hb c hc

/-- Insert; a present element leaves the set as it is. -/
def insert (s : OrdSet α) (a : α) : OrdSet α :=
  if h : a ∈ s.elems then s
  else ⟨s.elems.orderedInsert (· ≤ ·) a, sorted_orderedInsert s.sorted h⟩

/-- Erase; an absent element leaves the set as it is. -/
def erase (s : OrdSet α) (a : α) : OrdSet α :=
  ⟨s.elems.erase a, s.sorted.sublist List.erase_sublist⟩

/-- The first element in iteration order. -/
def first? (s : OrdSet α) : Option α := s.elems.head?

/-- The elements before `lower_bound(k)`, in iteration order. -/
def below (s : OrdSet α) (k : α) : List α := s.elems.takeWhile (· < k)

/-- What is left when the range before `lower_bound(k)` is erased. -/
def fromKey (s : OrdSet α) (k : α) : OrdSet α :=
  ⟨s.elems.dropWhile (· < k), s.sorted.sublist (List.dropWhile_sublist _)⟩

-- ========================================================== membership

@[simp] theorem not_mem_empty (a : α) : a ∉ (empty : OrdSet α) :=
  List.not_mem_nil

@[simp] theorem mem_insert {s : OrdSet α} {a b : α} :
    b ∈ s.insert a ↔ b = a ∨ b ∈ s := by
  unfold insert
  split
  next h =>
    constructor
    · exact .inr
    · rintro (rfl | hb)
      · exact h
      · exact hb
  next => exact List.mem_orderedInsert (· ≤ ·)

@[simp] theorem mem_erase {s : OrdSet α} {a b : α} :
    b ∈ s.erase a ↔ b ≠ a ∧ b ∈ s :=
  s.nodup.mem_erase_iff

/-- In an increasing list the prefix below a key is all there is below
it. -/
theorem mem_below {s : OrdSet α} {k a : α} :
    a ∈ s.below k ↔ a ∈ s ∧ a < k := by
  obtain ⟨l, hl⟩ := s
  show a ∈ l.takeWhile _ ↔ a ∈ l ∧ a < k
  induction l with
  | nil => simp
  | cons b l ih =>
      obtain ⟨hb, hl'⟩ := List.pairwise_cons.1 hl
      rw [List.takeWhile_cons]
      split
      next hbk =>
        have hbk' : b < k := by simpa using hbk
        rw [List.mem_cons, List.mem_cons, ih hl']
        constructor
        · rintro (rfl | ⟨hm, hk⟩)
          · exact ⟨.inl rfl, hbk'⟩
          · exact ⟨.inr hm, hk⟩
        · rintro ⟨rfl | hm, hk⟩
          · exact .inl rfl
          · exact .inr ⟨hm, hk⟩
      next hbk =>
        have hbk' : k ≤ b := by simpa using hbk
        simp only [List.not_mem_nil, List.mem_cons, false_iff, not_and]
        rintro (rfl | hm)
        · exact not_lt.2 hbk'
        · exact not_lt.2 (hbk'.trans (hb a hm).le)

theorem below_append_fromKey (s : OrdSet α) (k : α) :
    s.below k ++ (s.fromKey k).elems = s.elems :=
  List.takeWhile_append_dropWhile

theorem below_nodup (s : OrdSet α) (k : α) : (s.below k).Nodup :=
  s.nodup.sublist (List.takeWhile_sublist _)

theorem mem_fromKey {s : OrdSet α} {k a : α} :
    a ∈ s.fromKey k ↔ a ∈ s ∧ k ≤ a := by
  have hsplit := below_append_fromKey s k
  have hnd : (s.below k ++ (s.fromKey k).elems).Nodup := by
    rw [hsplit]
    exact s.nodup
  have hmem : a ∈ s ↔ a ∈ s.below k ∨ a ∈ s.fromKey k := by
    rw [mem_def, ← hsplit, List.mem_append]
    rfl
  constructor
  · intro ha
    refine ⟨hmem.2 (.inr ha), ?_⟩
    by_contra hk
    have hb : a ∈ s.below k :=
      mem_below.2 ⟨hmem.2 (.inr ha), not_le.1 hk⟩
    exact (List.nodup_append.1 hnd).2.2 a hb a ha rfl
  · rintro ⟨ha, hk⟩
    rcases hmem.1 ha with hb | hf
    · exact absurd (mem_below.1 hb).2 (not_lt.2 hk)
    · exact hf

-- ============================================================= the ends

theorem first?_eq_none {s : OrdSet α} : s.first? = none ↔ ∀ a, a ∉ s := by
  rw [first?, List.head?_eq_none_iff, List.eq_nil_iff_forall_not_mem]
  rfl

/-- The first element is the least. -/
theorem first?_eq_some {s : OrdSet α} {a : α} :
    s.first? = some a ↔ a ∈ s ∧ ∀ b ∈ s, a ≤ b := by
  obtain ⟨l, hl⟩ := s
  cases l with
  | nil => simp [first?, mem_def]
  | cons c l =>
      obtain ⟨hc, -⟩ := List.pairwise_cons.1 hl
      have hleast : ∀ b ∈ c :: l, c ≤ b := by
        intro b hb
        rcases List.mem_cons.1 hb with rfl | hb
        · exact le_refl _
        · exact (hc b hb).le
      show some c = some a ↔ a ∈ c :: l ∧ ∀ b ∈ c :: l, a ≤ b
      constructor
      · rintro ⟨rfl⟩
        exact ⟨List.mem_cons_self .., hleast⟩
      · rintro ⟨ha, hmin⟩
        rw [le_antisymm (hleast a ha) (hmin c (List.mem_cons_self ..))]

-- ================================================================ sizes

/-- Two sets whose elements correspond one to one have the same size. -/
theorem size_eq_of_bij {γ : Type*} {s : OrdSet α} {t : OrdSet β} {f : α → γ}
    {g : β → γ} (hf : Set.InjOn f {a | a ∈ s}) (hg : Set.InjOn g {b | b ∈ t})
    (h : ∀ c, (∃ a ∈ s, f a = c) ↔ ∃ b ∈ t, g b = c) : s.size = t.size := by
  have hfs : (s.elems.map f).Nodup :=
    List.Nodup.map_on (fun a ha b hb hab => hf ha hb hab) s.nodup
  have hgt : (t.elems.map g).Nodup :=
    List.Nodup.map_on (fun a ha b hb hab => hg ha hb hab) t.nodup
  have hperm : (s.elems.map f).Perm (t.elems.map g) := by
    rw [List.perm_ext_iff_of_nodup hfs hgt]
    intro c
    rw [List.mem_map, List.mem_map]
    exact h c
  have hlen := hperm.length_eq
  rw [List.length_map, List.length_map] at hlen
  exact hlen

end OrdSet
