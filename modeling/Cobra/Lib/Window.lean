/-
Lists as fixed memory: reading a window of a list, writing over one, and
resizing.

`slice l i j` is the window from `i` to `j`; `overlay l i d` writes `d`
at `i` over what is there; `resize l n x` cuts the list at `n` or fills
it up with `x`. The lemmas say what a window shows after a write right
behind it, and that windows inside the old list survive a resize.
-/
import Mathlib.Data.List.Basic

namespace Window

variable {α : Type*} {l d : List α} {i j n : Nat}

-- ============================================================== windows

/-- The elements from `i` up to `j`. -/
def slice (l : List α) (i j : Nat) : List α := (l.take j).drop i

/-- `d` written over the list, from `i` on. -/
def overlay (l : List α) (i : Nat) (d : List α) : List α :=
  l.take i ++ (d ++ l.drop (i + d.length))

/-- The list cut at `n`, or filled up to `n` with `x`. -/
def resize (l : List α) (n : Nat) (x : α) : List α :=
  l.take n ++ List.replicate (n - l.length) x

theorem length_slice (h : j ≤ l.length) : (slice l i j).length = j - i := by
  unfold slice
  rw [List.length_drop, List.length_take]
  omega

/-- An empty window. -/
theorem slice_self (l : List α) (i : Nat) : slice l i i = [] := by
  unfold slice
  apply List.drop_eq_nil_of_le
  rw [List.length_take]
  omega

/-- An element of a window. -/
theorem getElem?_slice {k : Nat} (h : i + k < j) :
    (slice l i j)[k]? = l[i + k]? := by
  unfold slice
  rw [List.getElem?_drop, List.getElem?_take, if_pos h]

/-- Dropping from the front moves the window's start. -/
theorem slice_add (l : List α) (i k j : Nat) :
    slice l (i + k) j = (slice l i j).drop k := by
  unfold slice
  rw [List.drop_drop]

/-- A shorter window with the same start. -/
theorem slice_take (h : i + n ≤ j) :
    slice l i (i + n) = (slice l i j).take n := by
  unfold slice
  rw [List.take_drop, List.take_take, Nat.min_eq_left h]

/-- Two windows, one right behind the other. -/
theorem slice_append (hi : i ≤ j) (hn : j ≤ n) :
    slice l i j ++ slice l j n = slice l i n := by
  have hfirst : slice l i j = ((l.take n).drop i).take (j - i) := by
    unfold slice
    rw [← List.drop_take, List.take_take, Nat.min_eq_left hn]
  have hsecond : slice l j n = ((l.take n).drop i).drop (j - i) := by
    unfold slice
    rw [List.drop_drop, Nat.add_sub_cancel' hi]
  rw [hfirst, hsecond, List.take_append_drop]
  rfl

-- =============================================================== writes

theorem length_overlay (h : i + d.length ≤ l.length) :
    (overlay l i d).length = l.length := by
  unfold overlay
  rw [List.length_append, List.length_append, List.length_drop,
    List.length_take]
  omega

/-- A window extended over a write right behind it. -/
theorem slice_overlay (hi : i ≤ j) (hj : j ≤ l.length) :
    slice (overlay l j d) i (j + d.length) = slice l i j ++ d := by
  have hlen : (l.take j).length = j := by
    rw [List.length_take]
    omega
  have htake : (overlay l j d).take (j + d.length) = l.take j ++ d := by
    unfold overlay
    rw [← List.append_assoc]
    apply List.take_left'
    rw [List.length_append, hlen]
  unfold slice
  rw [htake, List.drop_append_of_le_length (by omega)]

/-- What was just written. -/
theorem slice_overlay_self (h : i ≤ l.length) :
    slice (overlay l i d) i (i + d.length) = d := by
  rw [slice_overlay (Nat.le_refl i) h, slice_self, List.nil_append]

/-- A window in front of a write. -/
theorem slice_overlay_behind (h : j ≤ n) (hn : n ≤ l.length) :
    slice (overlay l n d) i j = slice l i j := by
  unfold slice overlay
  rw [List.take_append_of_le_length (by rw [List.length_take]; omega),
    List.take_take, Nat.min_eq_left h]

/-- A window extended over a write right in front of it. -/
theorem slice_overlay_front (h : i + d.length ≤ j) (hj : j ≤ l.length) :
    slice (overlay l i d) i j = d ++ slice l (i + d.length) j := by
  have hlen : (l.take i).length = i := by
    rw [List.length_take]
    omega
  unfold slice overlay
  rw [List.take_append, List.drop_append_of_le_length (by
    rw [List.length_take, hlen]; omega), hlen,
    List.take_of_length_le (by omega), List.drop_of_length_le (by omega),
    List.nil_append, List.take_append, List.take_of_length_le (by omega),
    List.take_drop]
  congr 3
  omega

/-- A write right behind a write. -/
theorem overlay_overlay_behind {e : List α}
    (h : i + d.length + e.length ≤ l.length) :
    overlay (overlay l i d) (i + d.length) e = overlay l i (d ++ e) := by
  have hlen : (l.take i ++ d).length = i + d.length := by
    rw [List.length_append, List.length_take]
    omega
  unfold overlay
  rw [← List.append_assoc (l.take i) d, List.take_left' hlen,
    List.drop_append, List.drop_eq_nil_of_le (by omega), List.nil_append,
    List.drop_drop, hlen, List.length_append, List.append_assoc,
    List.append_assoc]
  congr 4
  omega

/-- A write over the first part of a write. -/
theorem overlay_overlay_front {d' e : List α} (hd : d'.length = d.length)
    (h : i + d.length + e.length ≤ l.length) :
    overlay (overlay l i (d ++ e)) i d' = overlay l i (d' ++ e) := by
  have hlen : (l.take i).length = i := by
    rw [List.length_take]
    omega
  unfold overlay
  rw [List.take_left' hlen, List.drop_append, List.drop_eq_nil_of_le (by omega),
    List.nil_append, hlen, hd, Nat.add_sub_cancel_left, List.append_assoc,
    List.drop_left, List.length_append, List.length_append, hd,
    List.append_assoc]

/-- The front of the list, over the first part of a write. -/
theorem take_overlay {e : List α} (h : i ≤ l.length) :
    (overlay l i (d ++ e)).take (i + d.length) = l.take i ++ d := by
  have hlen : (l.take i ++ d).length = i + d.length := by
    rw [List.length_append, List.length_take]
    omega
  unfold overlay
  rw [List.append_assoc d, ← List.append_assoc]
  exact List.take_left' hlen

-- ============================================================= resizing

theorem length_resize (l : List α) (n : Nat) (x : α) :
    (resize l n x).length = n := by
  unfold resize
  rw [List.length_append, List.length_take, List.length_replicate]
  omega

/-- The size it has. -/
theorem resize_self (l : List α) (x : α) : resize l l.length x = l := by
  unfold resize
  rw [List.take_length, Nat.sub_self, List.replicate_zero, List.append_nil]

/-- A window that fits in both sizes. -/
theorem slice_resize (x : α) (hl : j ≤ l.length) (hn : j ≤ n) :
    slice (resize l n x) i j = slice l i j := by
  unfold slice resize
  rw [List.take_append_of_le_length (by rw [List.length_take]; omega),
    List.take_take, Nat.min_eq_left hn]

end Window
