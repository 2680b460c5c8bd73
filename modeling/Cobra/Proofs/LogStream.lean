/-
Insertions into a `LogStream` are atomic and stay inside the array: the
content is the texts of some of the items, each whole, in order.

# The argument

`convert` and `convertHex` leave the numeral and its zero where they were
told to and touch nothing else (`convert_ok`, `convertHex_ok`). The loop
writes the digits backwards, by induction on what is left of the number;
the sign and the zero come behind them, and all but the zero is turned
round.

No numeral of 64 bits is longer than 20 characters, so that the 32 bytes
that `formatInteger` asks for are enough, and the item is there as a whole
or not at all. A string is compared with the room by its own length, and
the test is strict. Hence `cur_` stays inside the array (`Good`), over any
run, and there is a place for the zero of `debugString`.
-/
import Cobra.AsyncLogging
import Cobra.LogStream
import Mathlib.Data.List.Induction

namespace Cobra

open Machine Window Detail

namespace Detail

-- ============================================================== memory

section Memory

variable {mem : List UInt8} {buf : Nat}

theorem put_ok {i : Nat} {data : List UInt8}
    (h : i + data.length ≤ mem.length) :
    put mem i data = .ok (overlay mem i data) := require_bind h _

/-- A write right behind what was written. -/
theorem put_behind {w data : List UInt8}
    (h : buf + w.length + data.length ≤ mem.length) :
    put (overlay mem buf w) (buf + w.length) data
      = .ok (overlay mem buf (w ++ data)) := by
  have hlen : (overlay mem buf w).length = mem.length :=
    length_overlay (by omega)
  rw [put_ok (by omega), overlay_overlay_behind h]

/-- One byte, and the rest right behind it. -/
theorem overlay_cons {c : UInt8} {w : List UInt8}
    (h : buf + 1 + w.length ≤ mem.length) :
    overlay (overlay mem buf [c]) (buf + 1) w = overlay mem buf (c :: w) :=
  overlay_overlay_behind (d := [c]) h

/-- The end of both conversions: the zero, and what is in front of it
turned round. -/
theorem terminate_ok {w : List UInt8}
    (h : buf + w.length + 1 ≤ mem.length) :
    (do
      let mem ← put (overlay mem buf w) (buf + w.length) [0]
      let mem ← reverse mem buf (buf + w.length)
      .ok (mem, buf + w.length - buf)
      : Except StreamFault (List UInt8 × Nat))
      = .ok (overlay mem buf (w.reverse ++ [0]), w.length) := by
  have hzero : (w ++ [0]).length = w.length + 1 := List.length_append
  have hlen : (overlay mem buf (w ++ [0])).length = mem.length :=
    length_overlay (by omega)
  have hslice : slice (overlay mem buf (w ++ [0])) buf (buf + w.length) = w := by
    unfold slice
    rw [take_overlay (by omega), List.drop_left' (by
      rw [List.length_take]; omega)]
  rw [put_behind h, ok_bind]
  unfold reverse
  rw [require_bind ⟨by omega, by omega⟩, hslice, ok_bind,
    overlay_overlay_front List.length_reverse h, Nat.add_sub_cancel_left]

end Memory

-- ============================================================= numbers

/-- The loop writes the digits, the last one first. -/
theorem digitLoop_ok {base : Nat} (hbase : 1 < base) {table : List UInt8}
    {origin : Int} (d : Char → UInt8) (mem : List UInt8) (p : Nat) (i : Int)
    (hlook : ∀ j : Int, (0 ≤ i → 0 ≤ j) → j.natAbs < base →
      element table (origin + j) = .ok (d (Nat.digitChar j.natAbs)))
    (hfit : p + (Nat.toDigits base i.natAbs).length ≤ mem.length) :
    digitLoop base hbase table origin mem p i
      = .ok (overlay mem p ((Nat.toDigits base i.natAbs).reverse.map d),
          p + (Nat.toDigits base i.natAbs).length) := by
  induction hn : i.natAbs using Nat.strongRecOn
    generalizing i mem p with
  | ind n ih =>
      rw [hn] at hfit
      have hmod : (i.tmod base).natAbs = n % base := by
        rw [Int.natAbs_tmod, Int.natAbs_natCast, hn]
      have hdiv : (i.tdiv base).natAbs = n / base := by
        rw [Int.natAbs_tdiv, Int.natAbs_natCast, hn]
        rfl
      have hpos : 0 < (Nat.toDigits base n).length := Nat.length_toDigits_pos
      have hc := hlook (i.tmod base) (fun h => Int.tmod_nonneg _ h)
        (by rw [hmod]; exact Nat.mod_lt _ (by omega))
      rw [hmod] at hc
      rw [digitLoop, hc, ok_bind, put_ok (by rw [List.length_singleton]; omega),
        ok_bind]
      by_cases hlast : n < base
      · have hend : i.tdiv base = 0 := by
          rw [← Int.natAbs_eq_zero, hdiv]
          exact Nat.div_eq_of_lt hlast
        rw [if_neg (not_not.2 hend), Nat.toDigits_of_lt_base hlast,
          Nat.mod_eq_of_lt hlast]
        rfl
      · have hmore : i.tdiv base ≠ 0 := by
          rw [← Int.natAbs_ne_zero, hdiv]
          exact Nat.ne_of_gt (Nat.div_pos (by omega) (by omega))
        have hdigits := Nat.toDigits_of_base_le hbase (Nat.le_of_not_lt hlast)
        rw [hdigits, List.length_append, List.length_singleton] at hfit
        have hlen : (overlay mem p [d (Nat.digitChar (n % base))]).length
            = mem.length :=
          length_overlay (by rw [List.length_singleton]; omega)
        rw [if_pos hmore, ih (n / base)
          (Nat.div_lt_self (by omega) hbase) _ _ _
          (fun j hj => hlook j fun hi => hj (Int.tdiv_nonneg hi (by omega)))
          (by rw [hdiv, hlen]; omega) hdiv]
        have hrest : ((Nat.toDigits base (n / base)).reverse.map d).length
            = (Nat.toDigits base (n / base)).length := by
          rw [List.length_map, List.length_reverse]
        rw [overlay_cons (by omega), hdigits, List.length_append,
          List.length_singleton, List.reverse_append, List.map_append,
          Nat.add_assoc, Nat.add_comm 1]
        rfl

/-- The table of `convert` has the digits on both sides of its zero. -/
theorem element_digits {j : Int} (h : j.natAbs < 10) :
    element digits (zero + j)
      = .ok (Nat.digitChar j.natAbs).toNat.toUInt8 := by
  have htable : ∀ k : Fin 19, element digits (k.val : Int)
      = .ok (Nat.digitChar ((k.val : Int) - 9).natAbs).toNat.toUInt8 := by
    decide
  have hk := htable ⟨(j + 9).toNat, by omega⟩
  have hval : (((j + 9).toNat : Nat) : Int) = zero + j := by
    unfold zero
    omega
  rw [hval] at hk
  rw [hk]
  unfold zero
  congr 4
  omega

theorem element_digitsHex {j : Int} (hj : 0 ≤ j) (h : j.natAbs < 16) :
    element digitsHex (0 + j)
      = .ok (Nat.digitChar j.natAbs).toUpper.toNat.toUInt8 := by
  have htable : ∀ k : Fin 16, element digitsHex (k.val : Int)
      = .ok (Nat.digitChar k.val).toUpper.toNat.toUInt8 := by
    decide
  have hk := htable ⟨j.natAbs, h⟩
  have hval : ((j.natAbs : Nat) : Int) = j := Int.natAbs_of_nonneg hj
  rw [Int.zero_add, ← hk]
  exact congrArg (element digitsHex) hval.symm

/-- The character in front of a negative number. -/
def sign (v : Int) : List UInt8 := if v < 0 then ascii ['-'] else []

theorem ascii_decimal (v : Int) :
    ascii (decimal v) = sign v ++ ascii (Nat.toDigits 10 v.natAbs) := by
  unfold decimal sign
  split
  · rfl
  · rfl

theorem length_ascii (text : List Char) :
    (ascii text).length = text.length := List.length_map ..

theorem putSign_ok {mem w : List UInt8} {buf : Nat} {v : Int}
    (h : buf + (w ++ sign v).length ≤ mem.length) :
    putSign (overlay mem buf w) (buf + w.length) v
      = .ok (overlay mem buf (w ++ sign v), buf + (w ++ sign v).length) := by
  rw [List.length_append] at h ⊢
  unfold putSign sign at *
  split
  next hneg =>
    rw [if_pos hneg] at h
    rw [put_behind (by omega)]
    rfl
  next hpos =>
    rw [List.append_nil]
    rfl

/-- `convert` writes the decimal numeral and a zero. -/
theorem convert_ok {mem : List UInt8} {buf : Nat} {v : Int}
    (h : buf + (decimal v).length + 1 ≤ mem.length) :
    convert mem buf v
      = .ok (overlay mem buf (ascii (decimal v) ++ [0]), (decimal v).length) := by
  have hlen := congrArg List.length (ascii_decimal v)
  rw [length_ascii, List.length_append, length_ascii] at hlen
  have hloop := digitLoop_ok (by decide : 1 < 10)
    (fun c => c.toNat.toUInt8) mem buf v (fun j _ hj => element_digits hj)
    (by omega)
  have hwritten : ((Nat.toDigits 10 v.natAbs).reverse.map
      fun c => c.toNat.toUInt8).length = (Nat.toDigits 10 v.natAbs).length := by
    rw [List.length_map, List.length_reverse]
  have hback : ((Nat.toDigits 10 v.natAbs).reverse.map
      (fun c => c.toNat.toUInt8) ++ sign v).reverse = ascii (decimal v) := by
    rw [List.reverse_append, ← List.map_reverse, List.reverse_reverse,
      ascii_decimal]
    congr 1
    unfold sign
    split
    · rfl
    · rfl
  have hall := congrArg List.length hback
  rw [List.length_reverse, length_ascii] at hall
  unfold convert
  rw [hloop, ok_bind, ← hwritten]
  show (putSign .. >>= _) = _
  rw [putSign_ok (by omega), ok_bind]
  refine (terminate_ok (by omega)).trans ?_
  rw [hback, hall]

/-- `convertHex` writes the hexadecimal numeral and a zero. -/
theorem convertHex_ok {mem : List UInt8} {buf : Nat} {v : UInt64}
    (h : buf + (hexadecimal v.toNat).length + 1 ≤ mem.length) :
    convertHex mem buf v
      = .ok (overlay mem buf (ascii (hexadecimal v.toNat) ++ [0]),
          (hexadecimal v.toNat).length) := by
  have hdigits : (hexadecimal v.toNat).length
      = (Nat.toDigits 16 v.toNat).length := List.length_map ..
  have hloop := digitLoop_ok (by decide : 1 < 16)
    (fun c => c.toUpper.toNat.toUInt8) mem buf v.toNat
    (fun j hj hlt => element_digitsHex (hj (Int.natCast_nonneg v.toNat)) hlt)
    (by rw [Int.natAbs_natCast]; omega)
  rw [Int.natAbs_natCast] at hloop
  have hback : ((Nat.toDigits 16 v.toNat).reverse.map
      fun c => c.toUpper.toNat.toUInt8).reverse
        = ascii (hexadecimal v.toNat) := by
    rw [← List.map_reverse, List.reverse_reverse]
    unfold ascii hexadecimal
    rw [List.map_map]
    rfl
  have hall := congrArg List.length hback
  rw [List.length_reverse, length_ascii] at hall
  rw [← hdigits, ← hall] at hloop
  unfold convertHex
  rw [hloop, ok_bind]
  refine (terminate_ok (by omega)).trans ?_
  rw [hback, hall]

/-- No number of 64 bits takes more than 20 characters. -/
theorem length_decimal {v : Int} (h : In64 v) : (decimal v).length ≤ 20 := by
  obtain ⟨hlow, hhigh⟩ := h
  unfold decimal
  split
  · have hdigits : (Nat.toDigits 10 v.natAbs).length ≤ 19 :=
      (Nat.length_toDigits_le_iff (by decide) (by decide)).2 (by omega)
    rw [List.length_cons]
    omega
  · exact (Nat.length_toDigits_le_iff (by decide) (by decide)).2 (by omega)

theorem length_hexadecimal (v : UInt64) :
    (hexadecimal v.toNat).length ≤ 16 := by
  unfold hexadecimal
  rw [List.length_map]
  exact (Nat.length_toDigits_le_iff (by decide) (by decide)).2 v.toNat_lt

end Detail

namespace RawFixedBuffer

-- ========================================================== the buffer

/-- The array has `size` bytes, and there is room for a zero behind the
content. -/
def Good (size : Nat) (b : RawFixedBuffer) : Prop :=
  b.data.length = size ∧ b.cur < size

/-- What an insertion leaves: the text behind the content if it fits, or
the buffer as it was. -/
def Inserted (size : Nat) (b : RawFixedBuffer) (fits : Prop)
    (text : List UInt8) (c : RawFixedBuffer) : Prop :=
  fits ∧ c.Good size ∧ c.content = b.content ++ text ∨ ¬ fits ∧ c = b

section Good

variable {size : Nat} {b : RawFixedBuffer}

theorem Good.length_content (hb : b.Good size) : b.content.length = b.cur := by
  obtain ⟨hlen, hcur⟩ := hb
  unfold content
  rw [List.length_take]
  omega

/-- A size that an `int` can hold is what the `int` says. -/
theorem castDiff_of_lt {n : Nat} (h : n < intMod) : castDiff n = n := by
  have hsize : intMod < sizeMod := by decide
  unfold castDiff
  rw [castSize_of_nat (Nat.lt_trans h hsize), castInt_of_lt h]

variable (hsize : size < intMod)
include hsize

theorem Good.length_eq (hb : b.Good size) : b.length = b.cur :=
  castDiff_of_lt (Nat.lt_trans hb.2 hsize)

theorem Good.avail_eq (hb : b.Good size) : b.avail = (size - b.cur : Nat) := by
  obtain ⟨hlen, hcur⟩ := hb
  have hdiff : (b.data.length : Int) - b.cur = (size - b.cur : Nat) := by
    omega
  unfold avail
  rw [hdiff]
  exact castDiff_of_lt (by omega)

theorem Good.castSize_avail (hb : b.Good size) :
    castSize b.avail = size - b.cur := by
  have hint : intMod < sizeMod := by decide
  rw [hb.avail_eq hsize]
  exact castSize_of_nat (by omega)

omit hsize in
/-- Text written behind the content, with whatever comes behind it, and
counted. -/
theorem Good.written (hb : b.Good size) (text rest : List UInt8)
    (hroom : b.cur + (text ++ rest).length ≤ size)
    (hlast : b.cur + text.length < size) :
    Good size ⟨overlay b.data b.cur (text ++ rest), b.cur + text.length⟩
      ∧ content ⟨overlay b.data b.cur (text ++ rest), b.cur + text.length⟩
        = b.content ++ text := by
  obtain ⟨hlen, hcur⟩ := hb
  refine ⟨⟨?_, hlast⟩, take_overlay (by omega)⟩
  rw [← hlen]
  exact length_overlay (by omega)

/-- `append` writes all of it, or nothing if there is no room for it and
a zero. -/
theorem append_ok (hb : b.Good size) {buf : List UInt8} {len : Nat}
    (hbuf : len < size - b.cur → len ≤ buf.length) :
    Holds (b.append buf len)
      (Inserted size b (len < size - b.cur) (buf.take len)) := by
  unfold append
  rw [hb.castSize_avail hsize]
  by_cases hroom : len < size - b.cur
  · have htake : (buf.take len).length = len := by
      rw [List.length_take]
      exact Nat.min_eq_left (hbuf hroom)
    have hwritten := hb.written (buf.take len) []
      (by rw [List.append_nil]; omega) (by omega)
    rw [List.append_nil, htake] at hwritten
    rw [if_pos hroom, require_bind (hbuf hroom),
      put_ok (by rw [htake, hb.1]; omega), ok_bind]
    exact holds_ok (.inl ⟨hroom, hwritten⟩)
  · rw [if_neg hroom]
    exact holds_ok (.inr ⟨hroom, rfl⟩)

/-- `FixedBuffer` of Cobra.AsyncLogging is the content of this one. -/
theorem append_refines (hb : b.Good size) {f : FixedBuffer size}
    (hf : b.content = f.data) (buf : List UInt8) :
    Holds (b.append buf buf.length) fun c =>
      c.Good size ∧ c.content = (f.append buf).data := by
  have havail : f.avail = size - b.cur := by
    unfold FixedBuffer.avail
    rw [← hf, hb.length_content]
  refine holds_mono (append_ok hsize hb fun _ => Nat.le_refl _) ?_
  rintro c (⟨hroom, hc, htext⟩ | ⟨hno, rfl⟩)
  · refine ⟨hc, ?_⟩
    unfold FixedBuffer.append
    rw [dif_pos (havail ▸ hroom), htext, hf, List.take_length]
  · refine ⟨hb, ?_⟩
    unfold FixedBuffer.append
    rw [dif_neg (havail ▸ hno), hf]

omit hsize in
/-- The zero of `debugString` is inside the array. -/
theorem Good.debugString_ok (hb : b.Good size) :
    Holds b.debugString fun c => c.Good size ∧ c.content = b.content := by
  have hwritten := hb.written [] [0] hb.2 hb.2
  unfold debugString
  rw [put_ok (by rw [List.length_singleton, hb.1]; exact hb.2), ok_bind]
  rw [List.append_nil] at hwritten
  exact holds_ok hwritten

end Good

end RawFixedBuffer

-- =========================================================== the items

namespace Item

/-- An item is left out only when there is less room than this. -/
theorem lt_of_not_fits {item : Item} {avail : Nat} (h : ¬ item.Fits avail) :
    avail < max LogStream.kMaxNumericSize (item.size + 1) := by
  unfold Fits at h
  split at h
  · omega
  · omega

end Item

namespace LogStream

open RawFixedBuffer

section Items

variable {size : Nat} (hsize : size < intMod) {s : LogStream}
  (hs : s.Good size)
include hsize hs

/-- A number formatted in place: with its zero it takes no more than the
32 bytes that were asked for. -/
theorem numeric_ok {text : List UInt8} {f : Except StreamFault LogStream}
    (hlen : text.length < kMaxNumericSize)
    (hf : s.cur + kMaxNumericSize ≤ size →
      f = .ok ⟨overlay s.data s.cur (text ++ [0]), s.cur + text.length⟩) :
    Holds (if s.avail ≥ kMaxNumericSize then f else .ok s)
      (Inserted size s (kMaxNumericSize ≤ size - s.cur) text) := by
  have hcur := hs.2
  have hpos : 0 < kMaxNumericSize := by decide
  rw [hs.avail_eq hsize]
  by_cases hroom : kMaxNumericSize ≤ size - s.cur
  · have hzero : (text ++ [0]).length = text.length + 1 := List.length_append
    rw [if_pos (by omega), hf (by omega)]
    refine holds_ok (.inl ⟨hroom, ?_⟩)
    exact hs.written text [0] (by omega) (by omega)
  · rw [if_neg (by omega)]
    exact holds_ok (.inr ⟨hroom, rfl⟩)

theorem formatInteger_ok {v : Int} (h : In64 v) :
    Holds (s.formatInteger v)
      (Inserted size s (kMaxNumericSize ≤ size - s.cur)
        (ascii (decimal v))) := by
  have hlen := length_decimal h
  unfold formatInteger
  have hmax : kMaxNumericSize = 32 := rfl
  refine numeric_ok hsize hs ?_ fun hroom => ?_
  · rw [length_ascii]
    omega
  · rw [convert_ok (by rw [hs.1]; omega), length_ascii]
    rfl

theorem insertPointer_ok {p : UInt64} :
    Holds (s.insertPointer p)
      (Inserted size s (kMaxNumericSize ≤ size - s.cur)
        (ascii ('0' :: 'x' :: hexadecimal p.toNat))) := by
  have hlen := length_hexadecimal p
  have hmax : kMaxNumericSize = 32 := rfl
  unfold insertPointer
  refine numeric_ok hsize hs ?_ fun hroom => ?_
  · rw [length_ascii, List.length_cons, List.length_cons]
    omega
  · have hdata := hs.1
    have hfirst : (ascii ['0']).length = 1 := rfl
    have hsecond : (ascii ['x']).length = 1 := rfl
    have hboth : (ascii ['0', 'x']).length = 2 := rfl
    have hput : put (overlay s.data s.cur (ascii ['0'])) (s.cur + 1)
        (ascii ['x']) = .ok (overlay s.data s.cur (ascii ['0', 'x'])) :=
      put_behind (w := ascii ['0']) (by omega)
    have hmem : (overlay s.data s.cur (ascii ['0', 'x'])).length = size := by
      rw [← hdata]
      exact length_overlay (by omega)
    have hbehind := overlay_overlay_behind (l := s.data) (i := s.cur)
      (d := ascii ['0', 'x']) (e := ascii (hexadecimal p.toNat) ++ [0]) (by
        rw [List.length_append, length_ascii (hexadecimal _),
          List.length_singleton]
        omega)
    rw [hboth] at hbehind
    rw [put_ok (by omega), ok_bind, hput, ok_bind,
      convertHex_ok (by omega), ok_bind, hbehind, length_ascii,
      List.length_cons, List.length_cons]
    rfl

theorem insertDouble_ok {text : List UInt8}
    (h : text.length < kMaxNumericSize) :
    Holds (s.insertDouble text)
      (Inserted size s (kMaxNumericSize ≤ size - s.cur) text) := by
  unfold insertDouble snprintfTo
  have hzero : (text ++ [0]).length = text.length + 1 := List.length_append
  refine numeric_ok hsize hs h fun hroom => ?_
  rw [List.take_of_length_le (by omega), put_ok (by rw [hs.1]; omega)]
  rfl

end Items

/-- A text that is compared with the room by its length. -/
theorem text_ok {size : Nat} (hsize : size < intMod) {s : LogStream}
    (hs : s.Good size) (item : Item) (buf : List UInt8)
    (hnumeric : item.numeric = false)
    (htake : buf.take item.size = item.render)
    (hbuf : item.size < size → item.size ≤ buf.length) :
    Holds (s.append buf item.size)
      (Inserted size s (item.Fits (size - s.cur)) item.render) := by
  unfold Item.Fits
  rw [hnumeric, ← htake]
  exact append_ok hsize hs fun hroom => hbuf (by omega)

/-- The text in front of the first zero. -/
theorem strlen_ok {v : List UInt8} (h : 0 ∈ v) :
    strlen v = .ok (v.takeWhile (· ≠ 0)).length
      ∧ v.take (v.takeWhile (· ≠ 0)).length = v.takeWhile (· ≠ 0)
      ∧ (v.takeWhile (· ≠ 0)).length ≤ v.length := by
  have htake : v.takeWhile (· ≠ 0) = v.take (v.idxOf 0) := by
    rw [List.takeWhile_eq_take_findIdx_not]
    unfold List.idxOf
    congr 2
    funext a
    show (!decide (a ≠ 0)) = decide (a = 0)
    rw [decide_not, Bool.not_not]
  have hlt : v.idxOf 0 < v.length := List.idxOf_lt_length_iff.2 h
  have hlen : (v.takeWhile (· ≠ 0)).length = v.idxOf 0 := by
    rw [htake, List.length_take]
    omega
  rw [hlen]
  exact ⟨require_bind h _, htake.symm, Nat.le_of_lt hlt⟩

/-- A piece that fits has as many bytes as it says. -/
theorem piece_length {v : StringPiece} (h : (Item.piece v).Ok)
    {size : Nat} (hsize : size < intMod) (hroom : castSize v.size < size) :
    castSize v.size ≤ v.data.length := by
  obtain ⟨hlow, hhigh, hdata⟩ := h
  unfold castSize sizeMod at *
  unfold intMod at *
  omega

/-- An item that fits has the length that it says. -/
theorem length_render {size avail : Nat} (hsize : size < intMod) {item : Item}
    (hitem : item.Ok) (havail : avail ≤ size) (h : item.Fits avail) :
    item.render.length = item.size := by
  cases item with
  | piece v =>
      have hroom : castSize v.size < avail := h
      show (v.data.take (castSize v.size)).length = castSize v.size
      rw [List.length_take]
      exact Nat.min_eq_left (piece_length hitem hsize (by omega))
  | _ => rfl

/-- Every insertion, at any level of the buffer. -/
theorem insert_ok {size : Nat} (hsize : size < intMod) {s : LogStream}
    (hs : s.Good size) {item : Item} (hitem : item.Ok) :
    Holds (s.insert item)
      (Inserted size s (item.Fits (size - s.cur)) item.render) := by
  have hnumber {v : Int} (h : In64 v) := formatInteger_ok hsize hs h
  cases item with
  | bool v => cases v with
    | false =>
        exact text_ok hsize hs (.bool false) (literal "0") rfl rfl
          fun _ => by decide
    | true =>
        exact text_ok hsize hs (.bool true) (literal "1") rfl rfl
          fun _ => by decide
  | short v =>
      show Holds (s.formatInteger v.toInt32.toInt) _
      rw [Int16.toInt_toInt32]
      have hlow := v.le_toInt
      have hhigh := v.toInt_lt
      exact hnumber ⟨by omega, by omega⟩
  | unsignedShort v =>
      show Holds (s.formatInteger v.toUInt32.toNat) _
      rw [UInt16.toNat_toUInt32]
      have hhigh := v.toNat_lt
      exact hnumber ⟨by omega, by omega⟩
  | int v =>
      have hlow := v.le_toInt
      have hhigh := v.toInt_lt
      exact hnumber ⟨by omega, by omega⟩
  | unsignedInt v =>
      have hhigh := v.toNat_lt
      exact hnumber ⟨by omega, by omega⟩
  | long v =>
      have hlow := v.le_toInt
      have hhigh := v.toInt_lt
      exact hnumber ⟨by omega, by omega⟩
  | unsignedLong v =>
      have hhigh := v.toNat_lt
      exact hnumber ⟨by omega, by omega⟩
  | longLong v =>
      have hlow := v.le_toInt
      have hhigh := v.toInt_lt
      exact hnumber ⟨by omega, by omega⟩
  | unsignedLongLong v =>
      have hhigh := v.toNat_lt
      exact hnumber ⟨by omega, by omega⟩
  | pointer p => exact insertPointer_ok hsize hs
  | double text => exact insertDouble_ok hsize hs hitem
  | char v =>
      exact text_ok hsize hs (.char v) [v] rfl rfl fun _ => Nat.le_refl _
  | chars v =>
      obtain ⟨hlen, htake, hle⟩ := strlen_ok hitem
      show Holds (strlen v >>= _) _
      rw [hlen, ok_bind]
      exact text_ok hsize hs (.chars v) v rfl htake fun _ => hle
  | string v =>
      refine text_ok hsize hs (.string v) (v ++ [0]) rfl List.take_left
        fun _ => ?_
      rw [List.length_append]
      exact Nat.le_add_right ..
  | piece v =>
      exact text_ok hsize hs (.piece v) v.data rfl rfl fun hroom =>
        piece_length hitem hsize hroom
  | fmt f =>
      have hlen : castSize f.length = f.data.length := by
        have hlt : f.data.length < intMod :=
          Nat.lt_trans f.length_lt (by decide)
        have hint : intMod < sizeMod := by decide
        unfold Fmt.length
        rw [castInt_of_lt hlt, castSize_of_nat (Nat.lt_trans hlt hint)]
      show Holds (s.append f.data (castSize f.length)) _
      rw [hlen]
      exact text_ok hsize hs (.fmt f) f.data rfl List.take_length
        fun _ => Nat.le_refl _

end LogStream

-- ====================================================== the content alone

namespace Item

variable {size : Nat} {content : List UInt8} {item : Item}

theorem fill_of_fits (h : item.Fits (size - content.length)) :
    fill size content item = content ++ item.render := if_pos h

theorem fill_of_not_fits (h : ¬ item.Fits (size - content.length)) :
    fill size content item = content := if_neg h

theorem fits_of_text {avail : Nat} (h : item.numeric = false) :
    item.Fits avail ↔ item.size < avail := by
  unfold Fits
  rw [h]
  rfl

theorem fits_of_numeric {avail : Nat} (h : item.numeric = true) :
    item.Fits avail ↔ LogStream.kMaxNumericSize ≤ avail := by
  unfold Fits
  rw [h]
  rfl

theorem fill_text (h : item.numeric = false)
    (hroom : item.size < size - content.length) :
    fill size content item = content ++ item.render :=
  fill_of_fits ((fits_of_text h).2 hroom)

theorem fill_text_full (h : item.numeric = false)
    (hfull : ¬ item.size < size - content.length) :
    fill size content item = content :=
  fill_of_not_fits ((fits_of_text h).not.2 hfull)

theorem fill_numeric_full (h : item.numeric = true)
    (hfull : ¬ LogStream.kMaxNumericSize ≤ size - content.length) :
    fill size content item = content :=
  fill_of_not_fits ((fits_of_numeric h).not.2 hfull)

end Item

namespace LogStream

open RawFixedBuffer

variable {size : Nat} (hsize : size < intMod)
include hsize

theorem insert_fill {s : LogStream} (hs : s.Good size) {item : Item}
    (hitem : item.Ok) :
    Holds (s.insert item) fun t =>
      t.Good size ∧ t.content = Item.fill size s.content item := by
  refine holds_mono (insert_ok hsize hs hitem) ?_
  rintro t (⟨hfits, ht, htext⟩ | ⟨hno, rfl⟩)
  · rw [← hs.length_content] at hfits
    exact ⟨ht, htext.trans (Item.fill_of_fits hfits).symm⟩
  · rw [← hs.length_content] at hno
    exact ⟨hs, (Item.fill_of_not_fits hno).symm⟩

/-- Insertions, one after the other. -/
theorem run_fill {items : List Item} (hitems : ∀ item ∈ items, item.Ok) :
    ∀ {s : LogStream}, s.Good size →
      Holds (run StreamCall.step s (items.map .insert)) fun t =>
        t.Good size ∧ t.content = items.foldl (Item.fill size) s.content := by
  induction items with
  | nil =>
      intro s hs
      exact holds_ok ⟨hs, rfl⟩
  | cons item items ih =>
      intro s hs
      obtain ⟨t, ht, hgood, hcontent⟩ :=
        insert_fill hsize hs (hitems item List.mem_cons_self)
      have hstep : StreamCall.step s (.insert item) = .ok t := ht
      rw [List.map_cons, run_cons_ok _ hstep, List.foldl_cons, ← hcontent]
      exact ih (fun item h => hitems item (List.mem_cons_of_mem _ h)) hgood

end LogStream

-- ============================================================= the runs

namespace StreamCall

/-- One call more: a reset forgets the items. -/
def note (items : List Item) : StreamCall → List Item
  | .insert item => items ++ [item]
  | .resetBuffer => []

/-- The items inserted since the last reset. -/
def sinceReset (calls : List StreamCall) : List Item := calls.foldl note []

/-- The items that are in a buffer of `size` bytes after the calls: an
item is added as a whole, or it is left out because there was less room
than its own length and a zero, or than 32 bytes. -/
inductive Kept (size : Nat) : List StreamCall → List Item → Prop
  | new : Kept size [] []
  | reset {calls : List StreamCall} {kept : List Item}
      (h : Kept size calls kept) : Kept size (calls ++ [.resetBuffer]) []
  | keep {calls : List StreamCall} {kept : List Item} {item : Item}
      (h : Kept size calls kept) (hwhole : item.render.length = item.size) :
      Kept size (calls ++ [.insert item]) (kept ++ [item])
  | drop {calls : List StreamCall} {kept : List Item} {item : Item}
      (h : Kept size calls kept)
      (hroom : size - (kept.flatMap Item.render).length
        < max LogStream.kMaxNumericSize (item.size + 1)) :
      Kept size (calls ++ [.insert item]) kept

theorem sinceReset_insert (calls : List StreamCall) (item : Item) :
    sinceReset (calls ++ [.insert item]) = sinceReset calls ++ [item] := by
  unfold sinceReset
  rw [List.foldl_append]
  rfl

/-- What is kept is a part of what was inserted, in order. -/
theorem Kept.sublist {size : Nat} {calls : List StreamCall}
    {kept : List Item} (h : Kept size calls kept) :
    kept.Sublist (sinceReset calls) := by
  induction h with
  | new => exact List.Sublist.slnil
  | reset h ih => exact List.nil_sublist _
  | keep h hwhole ih =>
      rw [sinceReset_insert]
      exact ih.append (List.Sublist.refl _)
  | drop h hroom ih =>
      rw [sinceReset_insert]
      exact ih.trans (List.sublist_append_left ..)

section Runs

open RawFixedBuffer LogStream

variable {size : Nat} (hsize : size < intMod)
include hsize

/-- One insertion more. -/
theorem kept_insert {calls : List StreamCall} {kept : List Item}
    {item : Item} {s t : LogStream} (hs : s.Good size) (hitem : item.Ok)
    (hkept : Kept size calls kept)
    (hcontent : s.content = kept.flatMap Item.render)
    (h : Inserted size s (item.Fits (size - s.cur)) item.render t) :
    t.Good size ∧ ∃ kept', Kept size (calls ++ [.insert item]) kept'
      ∧ t.content = kept'.flatMap Item.render := by
  obtain ⟨hfits, ht, htext⟩ | ⟨hno, rfl⟩ := h
  · refine ⟨ht, kept ++ [item], hkept.keep ?_, ?_⟩
    · exact length_render hsize hitem (Nat.sub_le ..) hfits
    · rw [htext, hcontent, List.flatMap_append, List.flatMap_singleton]
  · refine ⟨hs, kept, hkept.drop ?_, hcontent⟩
    rw [← hcontent, hs.length_content]
    exact Item.lt_of_not_fits hno

/-- What holds after every run. -/
theorem run_kept (hpos : 0 < size) {mem : List UInt8}
    (hmem : mem.length = size) (calls : List StreamCall)
    (hitems : ∀ item, .insert item ∈ calls → item.Ok) :
    ∃ s, run step (.new mem) calls = .ok s ∧ s.Good size
      ∧ ∃ kept, Kept size calls kept
        ∧ s.content = kept.flatMap Item.render := by
  induction calls using List.reverseRecOn with
  | nil => exact ⟨_, rfl, ⟨hmem, hpos⟩, [], .new, rfl⟩
  | append_singleton calls call ih =>
      obtain ⟨s, hrun, hs, kept, hkept, hcontent⟩ :=
        ih fun item h => hitems item (List.mem_append_left _ h)
      rw [run_append [call] hrun]
      cases call with
      | insert item =>
          have hitem := hitems item
            (List.mem_append_right _ List.mem_cons_self)
          obtain ⟨t, ht, hinserted⟩ := insert_ok hsize hs hitem
          exact ⟨t, run_cons_ok [] ht,
            kept_insert hsize hs hitem hkept hcontent hinserted⟩
      | resetBuffer =>
          exact ⟨s.reset, rfl, ⟨hs.1, hpos⟩, [], hkept.reset, rfl⟩

end Runs

end StreamCall

/-- After any insertions and resets, the content is the texts of some of
the items since the last reset, in order and each as a whole; an item is
missing only if there was not enough room. No call leaves the array, and
there is always room for the zero of `debugString`. -/
theorem insertions_atomic (mem : List UInt8) (hmem : mem.length = kSmallBuffer)
    (calls : List StreamCall)
    (hitems : ∀ item, .insert item ∈ calls → item.Ok) :
    ∃ s kept, run StreamCall.step (.new mem) calls = .ok s
      ∧ StreamCall.Kept kSmallBuffer calls kept
      ∧ s.content = kept.flatMap Item.render
      ∧ kept.Sublist (StreamCall.sinceReset calls)
      ∧ s.data.length = kSmallBuffer
      ∧ s.length ≤ (kSmallBuffer : Int) - 1
      ∧ ∃ t, s.debugString = .ok t := by
  have hsize : kSmallBuffer < intMod := by decide
  obtain ⟨s, hrun, hs, kept, hkept, hcontent⟩ :=
    StreamCall.run_kept hsize (by decide) hmem calls hitems
  obtain ⟨t, ht, -⟩ := hs.debugString_ok
  refine ⟨s, kept, hrun, hkept, hcontent, hkept.sublist, hs.1, ?_, t, ht⟩
  have hcur := hs.2
  rw [hs.length_eq hsize]
  omega

/-- Items of several kinds around a reset. -/
def mixedCalls : List StreamCall :=
  [.insert (.chars (literal "lost")), .resetBuffer, .insert (.long (-70)),
    .insert (.pointer 255), .insert (.double (ascii "0.5".toList)),
    .insert (.piece (.ofPointer (ascii "pieces".toList) 5))]

theorem insertions_atomic_mixed :
    (∀ item, .insert item ∈ mixedCalls → item.Ok)
      ∧ ∃ s kept, run StreamCall.step (.new (List.replicate kSmallBuffer 7))
          mixedCalls = .ok s
        ∧ StreamCall.Kept kSmallBuffer mixedCalls kept
        ∧ s.content = kept.flatMap Item.render
        ∧ kept.Sublist (StreamCall.sinceReset mixedCalls)
        ∧ s.data.length = kSmallBuffer
        ∧ s.length ≤ (kSmallBuffer : Int) - 1
        ∧ ∃ t, s.debugString = .ok t := by
  have hitems : ∀ item, .insert item ∈ mixedCalls → item.Ok := by
    intro item h
    simp only [mixedCalls, List.mem_cons, StreamCall.insert.injEq,
      reduceCtorEq, false_or, List.not_mem_nil, or_false] at h
    rcases h with rfl | rfl | rfl | rfl | rfl
    · decide
    · decide
    · decide
    · decide
    · decide
  exact ⟨hitems, insertions_atomic _ (List.length_replicate ..) mixedCalls hitems⟩

end Cobra
