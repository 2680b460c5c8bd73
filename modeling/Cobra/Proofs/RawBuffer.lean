/-
`Buffer` as the machine has it (Cobra.RawBuffer) is the `Buffer` with
ordered indices, as long as the sizes stay below `2 ^ 63`, and so a byte
queue.

# Two steps

`Buffer.raw` forgets the order of the indices. Every operation on
`b.raw` does what the same operation does on `b`: no sum or difference
of the source wraps, because all of them are about parts of the vector
or at most one size larger than it. That also says that no copy leaves
the vector. What the operations do to the content is then read off
Cobra.Proofs.Buffer.

A run relates each buffer to a byte queue (`Shows`): its readable bytes
are the queue, and unless it was prepended to there is room for
`kCheapPrepend` bytes in front.
-/
import Cobra.RawBuffer
import Cobra.Proofs.Buffer

namespace Cobra

open Machine Window

-- =========================================================== arithmetic

theorem plus_of_lt {a b : Nat} (h : a + b < sizeMod) : plus a b = a + b :=
  Nat.mod_eq_of_lt h

theorem minus_of_le {a b : Nat} (h : b ≤ a) (ha : a < sizeMod) :
    minus a b = a - b := by
  unfold minus
  rw [Nat.mod_eq_of_lt (Nat.lt_of_le_of_lt h ha)]
  have hsum : a + (sizeMod - b) = a - b + sizeMod := by omega
  rw [hsum, Nat.add_mod_right]
  exact Nat.mod_eq_of_lt (by omega)

theorem lt_sizeMod {n : Nat} (h : n ≤ maxSize) : n < sizeMod :=
  Nat.lt_of_le_of_lt h (by decide)

/-- A size and the room in front are in range together. -/
theorem cheap_lt_sizeMod {n : Nat} (h : n ≤ maxSize) :
    n + kCheapPrepend < sizeMod := by
  have hroom : maxSize + kCheapPrepend < sizeMod := by decide
  omega

-- ============================================================ the fields

/-- The fields without their order. -/
def Buffer.raw (b : Buffer) : RawBuffer :=
  ⟨b.buffer, b.readerIndex, b.writerIndex⟩

namespace RawBuffer

section Fields

variable {b : Buffer} (hb : b.buffer.length ≤ maxSize)
include hb

theorem readableBytes_raw : b.raw.readableBytes = b.readableBytes :=
  minus_of_le b.reader_le (lt_sizeMod (Nat.le_trans b.writer_le hb))

theorem writableBytes_raw : b.raw.writableBytes = b.writableBytes :=
  minus_of_le b.writer_le (lt_sizeMod hb)

/-- A pointer into the readable bytes. -/
theorem pointer_le {len : Nat} (h : len ≤ b.readableBytes) :
    b.readerIndex + len ≤ b.writerIndex ∧ b.readerIndex + len < sizeMod := by
  have hr := b.reader_le
  have hlast : b.readerIndex + len ≤ b.writerIndex := by
    unfold Buffer.readableBytes at h
    omega
  exact ⟨hlast, lt_sizeMod (Nat.le_trans hlast (Nat.le_trans b.writer_le hb))⟩

end Fields

-- ======================================================== the operations

/-- What an operation leaves: the content `c`, a vector of a size in
range, and the room in front if it was there. -/
def Leaves (b : Buffer) (c : List UInt8) (r : RawBuffer) : Prop :=
  ∃ b' : Buffer, r = b'.raw ∧ b'.content = c ∧ b'.buffer.length ≤ maxSize
    ∧ (kCheapPrepend ≤ b.readerIndex → kCheapPrepend ≤ b'.readerIndex)

variable {b : Buffer}

section Operations

variable (hb : b.buffer.length ≤ maxSize)
include hb

theorem retrieveAll_leaves : Leaves b [] b.raw.retrieveAll :=
  ⟨b.retrieveAll, rfl, b.content_retrieveAll, hb, fun _ => Nat.le_refl _⟩

theorem retrieve_leaves {len : Nat} (h : len ≤ b.readableBytes) :
    Holds (b.raw.retrieve len) (Leaves b (b.content.drop len)) := by
  have hread := readableBytes_raw hb
  unfold retrieve
  rw [hread]
  apply holds_require h
  split
  next hlt =>
    have hreader := b.reader_le
    let b' : Buffer := { b with
      readerIndex := b.readerIndex + len
      reader_le := by unfold Buffer.readableBytes at hlt; omega }
    refine holds_ok ⟨b', ?_, slice_add .., hb, fun hc => ?_⟩
    · unfold Buffer.raw
      simp only [plus_of_lt (pointer_le hb h).2, b']
    · exact Nat.le_trans hc (Nat.le_add_right ..)
  next hge =>
    rw [List.drop_eq_nil_of_le (by rw [Buffer.length_content]; omega)]
    exact holds_ok (retrieveAll_leaves hb)

theorem retrieveUntil_leaves {n : Nat} (h : n ≤ b.readableBytes) :
    Holds (b.raw.retrieveUntil (plus b.raw.readerIndex n))
      (Leaves b (b.content.drop n)) := by
  obtain ⟨hlast, hlt⟩ := pointer_le hb h
  have hplus : plus b.raw.readerIndex n = b.readerIndex + n := plus_of_lt hlt
  have hback : minus (b.readerIndex + n) b.raw.readerIndex = n := by
    have hminus := minus_of_le (Nat.le_add_right b.readerIndex n) hlt
    rw [Nat.add_sub_cancel_left] at hminus
    exact hminus
  unfold retrieveUntil
  rw [hplus]
  refine holds_require (Nat.le_add_right ..) (holds_require hlast ?_)
  rw [hback]
  exact retrieve_leaves hb h

theorem retrieveAsString_leaves {len : Nat} (h : len ≤ b.readableBytes) :
    Holds (b.raw.retrieveAsString len) fun r =>
      r.1 = b.content.take len ∧ Leaves b (b.content.drop len) r.2 := by
  obtain ⟨hlast, hlt⟩ := pointer_le hb h
  have hplus : plus b.raw.readerIndex len = b.readerIndex + len :=
    plus_of_lt hlt
  unfold retrieveAsString bytes
  rw [readableBytes_raw hb, hplus]
  refine holds_require h (holds_bind
    (Q := fun str => str = b.content.take len) ?_ fun str hstr => ?_)
  · refine holds_require ⟨Nat.le_add_right .., Nat.le_trans hlast b.writer_le⟩
      (holds_ok ?_)
    exact slice_take hlast
  · refine holds_bind (retrieve_leaves hb h) fun r hleaves => ?_
    exact holds_ok ⟨hstr, hleaves⟩

-- ============================================================== writing

/-- The test of `makeSpace`, without wrapping. -/
theorem roomTest_raw {len : Nat} (hlen : len ≤ maxSize) :
    plus b.raw.writableBytes b.raw.prependableBytes < plus len kCheapPrepend
      ↔ b.writableBytes + b.prependableBytes < len + kCheapPrepend := by
  have hr := b.reader_le
  have hw := b.writer_le
  have hsum : b.writableBytes + b.prependableBytes < sizeMod := by
    apply lt_sizeMod
    unfold Buffer.writableBytes Buffer.prependableBytes
    omega
  rw [writableBytes_raw hb, plus_of_lt (cheap_lt_sizeMod hlen)]
  exact iff_of_eq (congrArg (· < _) (plus_of_lt hsum))

/-- Growing the vector. -/
theorem makeSpace_grow {len : Nat} (hroom : b.writableBytes < len)
    (hless : b.writableBytes + b.prependableBytes < len + kCheapPrepend)
    (hlen : b.raw.Sized len) :
    Holds (b.raw.makeSpace len) fun r =>
      Leaves b b.content r ∧ len ≤ r.writableBytes := by
  have hgrown : b.writerIndex + len ≤ maxSize := by
    have hsize := hlen.2
    unfold grownSize at hsize
    rw [writableBytes_raw hb, if_pos ⟨hroom, hless⟩] at hsize
    exact hsize
  have hplus : plus b.raw.writerIndex len = b.writerIndex + len :=
    plus_of_lt (lt_sizeMod hgrown)
  obtain ⟨b', hb', hcontent, hroom'⟩ := Buffer.makeSpace_ok hroom
  unfold Buffer.makeSpace at hb'
  rw [if_pos hless] at hb'
  have hsize : b'.buffer.length ≤ maxSize := by
    cases hb'
    simp only [length_resize]
    exact hgrown
  have hraw : Holds (b.raw.makeSpace len) fun r => r = b'.raw := by
    cases hb'
    unfold makeSpace
    rw [if_pos ((roomTest_raw hb hlen.1).mpr hless), hplus]
    exact holds_ok rfl
  apply holds_mono hraw
  rintro r rfl
  rw [writableBytes_raw hsize]
  refine ⟨⟨b', rfl, hcontent, hsize, fun hc => ?_⟩, hroom'⟩
  cases hb'
  exact hc

/-- Moving the content to the front. -/
theorem makeSpace_move {len : Nat} (hroom : b.writableBytes < len)
    (hless : ¬ b.writableBytes + b.prependableBytes < len + kCheapPrepend)
    (hlen : len ≤ maxSize) :
    Holds (b.raw.makeSpace len) fun r =>
      Leaves b b.content r ∧ len ≤ r.writableBytes := by
  have hfront : kCheapPrepend < b.readerIndex := by
    unfold Buffer.prependableBytes at hless
    omega
  obtain ⟨b', hb', hcontent, hroom'⟩ := Buffer.makeSpace_ok hroom
  unfold Buffer.makeSpace at hb'
  rw [if_neg hless, dif_pos hfront] at hb'
  obtain ⟨_, hreq, hok⟩ := bind_ok_inv hb'
  have hsame := require_inv hreq
  have hb' := Except.ok.inj hok
  have hsize : b'.buffer.length ≤ maxSize := by
    rw [← hb', length_overlay (b.front_le hfront)]
    exact hb
  have hplus : plus kCheapPrepend b.readableBytes
      = kCheapPrepend + b.readableBytes := by
    have hfits := b.front_le hfront
    rw [Buffer.length_content] at hfits
    exact plus_of_lt (lt_sizeMod (Nat.le_trans hfits hb))
  have hraw : Holds (b.raw.makeSpace len) fun r => r = b'.raw := by
    unfold makeSpace bytes copy
    rw [if_neg (mt (roomTest_raw hb hlen).mp hless)]
    refine holds_require hfront (holds_bind (Q := fun d => d = b.content)
      (holds_require ⟨b.reader_le, b.writer_le⟩ (holds_ok rfl)) ?_)
    rintro data rfl
    rw [readableBytes_raw hb, hplus]
    refine holds_bind (holds_require (b.front_le hfront) (holds_ok rfl)) ?_
    rintro r rfl
    have hread := readableBytes_raw hsize
    rw [← hb'] at hread ⊢
    exact holds_require (hsame.trans hread.symm) (holds_ok rfl)
  apply holds_mono hraw
  rintro r rfl
  rw [writableBytes_raw hsize]
  refine ⟨⟨b', rfl, hcontent, hsize, fun _ => ?_⟩, hroom'⟩
  apply Nat.le_of_eq
  rw [← hb']

theorem ensureWritableBytes_leaves {len : Nat} (hlen : b.raw.Sized len) :
    Holds (b.raw.ensureWritableBytes len) fun r =>
      Leaves b b.content r ∧ len ≤ r.writableBytes := by
  have hroom : Holds (b.raw.makeRoom len) fun r =>
      Leaves b b.content r ∧ len ≤ r.writableBytes := by
    unfold makeRoom
    split
    next hlt =>
      rw [writableBytes_raw hb] at hlt
      by_cases hless :
          b.writableBytes + b.prependableBytes < len + kCheapPrepend
      · exact makeSpace_grow hb hlt hless hlen
      · exact makeSpace_move hb hlt hless hlen.1
    next hge =>
      exact holds_ok ⟨⟨b, rfl, rfl, hb, id⟩, Nat.le_of_not_lt hge⟩
  unfold ensureWritableBytes
  refine holds_bind hroom fun r hr => ?_
  exact holds_require hr.2 (holds_ok hr)

theorem write_leaves {data : List UInt8}
    (h : data.length ≤ b.writableBytes) :
    Holds (b.raw.write data) (Leaves b (b.content ++ data)) := by
  have hw := b.writer_le
  have hfits : b.writerIndex + data.length ≤ b.buffer.length := by
    unfold Buffer.writableBytes at h
    omega
  have hplus : plus b.raw.writerIndex data.length
      = b.writerIndex + data.length :=
    plus_of_lt (lt_sizeMod (Nat.le_trans hfits hb))
  unfold write copy
  refine holds_bind (holds_require hfits (holds_ok rfl)) ?_
  rintro r rfl
  unfold hasWritten
  rw [hplus]
  refine holds_ok ⟨b.write data h, rfl, Buffer.content_write h, ?_, id⟩
  exact (length_overlay hfits).symm ▸ hb

theorem append_leaves {data : List UInt8} (hlen : b.raw.Sized data.length) :
    Holds (b.raw.append data) (Leaves b (b.content ++ data)) := by
  unfold append
  apply holds_bind (ensureWritableBytes_leaves hb hlen)
  rintro r ⟨⟨b', rfl, hcontent, hsize, hcheap⟩, hroom⟩
  rw [writableBytes_raw hsize] at hroom
  apply holds_mono (write_leaves hsize hroom)
  rintro r ⟨b'', rfl, hcontent', hsize', hcheap'⟩
  rw [hcontent] at hcontent'
  exact ⟨b'', rfl, hcontent', hsize', fun hc => hcheap' (hcheap hc)⟩

theorem prepend_shows {data : List UInt8}
    (h : data.length ≤ b.prependableBytes) :
    Holds (b.raw.prepend data) fun r => ∃ b' : Buffer,
      r = b'.raw ∧ b'.content = data ++ b.content
        ∧ b'.buffer.length ≤ maxSize := by
  have hr := b.reader_le
  have hw := b.writer_le
  have hminus : minus b.raw.readerIndex data.length
      = b.readerIndex - data.length :=
    minus_of_le h (lt_sizeMod (Nat.le_trans hr (Nat.le_trans hw hb)))
  have hfits : b.readerIndex - data.length + data.length
      ≤ b.buffer.length := by
    unfold Buffer.prependableBytes at h
    omega
  unfold prepend copy
  apply holds_require h
  rw [hminus]
  refine holds_require hfits (holds_ok ?_)
  refine ⟨b.prepend data h, rfl, Buffer.content_prepend h, ?_⟩
  exact (length_overlay hfits).symm ▸ hb

end Operations

/-- A buffer beside its byte queue `c`; `m` is the queue's mark. -/
def Shows (r : RawBuffer) (c : List UInt8) (m : Bool) : Prop :=
  ∃ b : Buffer, r = b.raw ∧ b.content = c ∧ b.buffer.length ≤ maxSize
    ∧ (m = false → kCheapPrepend ≤ b.readerIndex)

theorem new_shows : Shows new [] false :=
  ⟨.empty, rfl, Buffer.content_empty, by decide +kernel, fun _ => Nat.le_refl _⟩

theorem Leaves.shows {r : RawBuffer} {c : List UInt8} {m : Bool}
    (h : Leaves b c r) (hm : m = false → kCheapPrepend ≤ b.readerIndex) :
    Shows r c m := by
  obtain ⟨b', hraw, hcontent, hsize, hcheap⟩ := h
  exact ⟨b', hraw, hcontent, hsize, fun h => hcheap (hm h)⟩

end RawBuffer

-- ============================================================== the runs

/-- The buffers beside the byte queues. -/
structure Refines (s : RawBuffers) (q : ByteQueues) : Prop where
  returned : s.returned = q.returned
  shows : ∀ i, (s.bufs i).Shows (q.queues i) (q.prepended i)

namespace Refines

variable {s : RawBuffers} {q : ByteQueues} {i : Nat}

theorem start : Refines .start .start := ⟨rfl, fun _ => RawBuffer.new_shows⟩

/-- One buffer and its queue replaced. -/
theorem update {r : RawBuffer} {c : List UInt8} {m : Bool} (h : Refines s q)
    (hr : r.Shows c m) (j : Nat) :
    (Function.update s.bufs i r j).Shows (Function.update q.queues i c j)
      (Function.update q.prepended i m j) := by
  by_cases hj : j = i
  · subst hj
    simp only [Function.update_self]
    exact hr
  · simp only [Function.update_of_ne hj]
    exact h.shows j

/-- The same without touching the mark. -/
theorem update_queue {r : RawBuffer} {c : List UInt8} (h : Refines s q)
    (hr : r.Shows c (q.prepended i)) (j : Nat) :
    (Function.update s.bufs i r j).Shows (Function.update q.queues i c j)
      (q.prepended j) := by
  have hupdate := h.update (i := i) hr j
  rw [Function.update_eq_self] at hupdate
  exact hupdate

/-- An operation of one buffer that keeps the room in front. -/
theorem onBuffer {f : RawBuffer → Except RawFault RawBuffer}
    {c : List UInt8} (h : Refines s q)
    (hf : ∀ b : Buffer, s.bufs i = b.raw → b.content = q.queues i →
      b.buffer.length ≤ maxSize → Holds (f b.raw) (RawBuffer.Leaves b c)) :
    Holds (s.onBuffer i f) fun s' =>
      Refines s' { q with queues := Function.update q.queues i c } := by
  obtain ⟨b, hraw, hcontent, hsize, hcheap⟩ := h.shows i
  unfold RawBuffers.onBuffer
  rw [hraw]
  refine holds_bind (hf b hraw hcontent hsize) fun r hleaves => ?_
  exact holds_ok ⟨h.returned, h.update_queue (hleaves.shows hcheap)⟩

/-- The same for an operation that returns the bytes it drops. -/
theorem returning {f : RawBuffer → Except RawFault (List UInt8 × RawBuffer)}
    {n : Nat} (h : Refines s q)
    (hf : ∀ b : Buffer, s.bufs i = b.raw → b.content = q.queues i →
      b.buffer.length ≤ maxSize → Holds (f b.raw) fun r =>
        r.1 = b.content.take n ∧ RawBuffer.Leaves b (b.content.drop n) r.2) :
    Holds (s.returning i f) fun s' => Refines s' (q.take i n) := by
  obtain ⟨b, hraw, hcontent, hsize, hcheap⟩ := h.shows i
  unfold RawBuffers.returning
  rw [hraw]
  apply holds_bind (hf b hraw hcontent hsize)
  rintro ⟨str, r⟩ ⟨hstr, hleaves⟩
  rw [hcontent] at hstr hleaves
  refine holds_ok ⟨?_, h.update_queue (hleaves.shows hcheap)⟩
  have hret := h.returned
  simp only at hstr
  simp only [ByteQueues.take, hret, hstr]

theorem prepend {data : List UInt8} (h : Refines s q)
    (hlen : data.length ≤ (s.bufs i).prependableBytes) :
    Holds (s.onBuffer i (·.prepend data)) fun s' =>
      Refines s' (q.pushFront i data) := by
  obtain ⟨b, hraw, hcontent, hsize, -⟩ := h.shows i
  unfold RawBuffers.onBuffer
  rw [hraw] at hlen ⊢
  apply holds_bind (RawBuffer.prepend_shows hsize hlen)
  rintro r ⟨b', hraw', hcontent', hsize'⟩
  rw [hcontent] at hcontent'
  have hshows : r.Shows (data ++ q.queues i) true :=
    ⟨b', hraw', hcontent', hsize', fun hm => absurd hm (by decide)⟩
  exact holds_ok ⟨h.returned, h.update hshows⟩

theorem swap (h : Refines s q) (i j : Nat) :
    Refines (s.swap i j) (q.swap i j) := by
  have hfirst : ∀ k, (Function.update s.bufs i (s.bufs j) k).Shows
      (Function.update q.queues i (q.queues j) k)
      (Function.update q.prepended i (q.prepended j) k) :=
    h.update (h.shows j)
  refine ⟨h.returned, ?_⟩
  exact update (s := { s with bufs := _ })
    (q := { q with queues := _, prepended := _ }) ⟨h.returned, hfirst⟩
    (h.shows i)

/-- An operation called as it may be does to the buffers what it says it
does to the byte queues. -/
theorem step (h : Refines s q) (op : BufferOp) (hop : s.Legal op) :
    Holds (s.step op) fun s' => Refines s' (q.step op) := by
  unfold RawBuffers.step ByteQueues.step
  cases op with
  | append i data =>
      refine h.onBuffer fun b hraw hcontent hsize => ?_
      have hlen : (s.bufs i).Sized data.length := hop
      rw [hraw] at hlen
      rw [← hcontent]
      exact RawBuffer.append_leaves hsize hlen
  | prepend i data => exact h.prepend hop
  | retrieve i len =>
      refine h.onBuffer fun b hraw hcontent hsize => ?_
      have hlen : len ≤ (s.bufs i).readableBytes := hop
      rw [hraw, RawBuffer.readableBytes_raw hsize] at hlen
      rw [← hcontent]
      exact RawBuffer.retrieve_leaves hsize hlen
  | retrieveUntil i n =>
      refine h.onBuffer fun b hraw hcontent hsize => ?_
      have hlen : n ≤ (s.bufs i).readableBytes := hop
      rw [hraw, RawBuffer.readableBytes_raw hsize] at hlen
      rw [← hcontent]
      exact RawBuffer.retrieveUntil_leaves hsize hlen
  | retrieveAsString i len =>
      refine h.returning fun b hraw _ hsize => ?_
      have hlen : len ≤ (s.bufs i).readableBytes := hop
      rw [hraw, RawBuffer.readableBytes_raw hsize] at hlen
      exact RawBuffer.retrieveAsString_leaves hsize hlen
  | retrieveAllAsString i =>
      refine h.returning fun b hraw hcontent hsize => ?_
      rw [← hcontent, Buffer.length_content]
      unfold RawBuffer.retrieveAllAsString
      rw [RawBuffer.readableBytes_raw hsize]
      exact RawBuffer.retrieveAsString_leaves hsize (Nat.le_refl _)
  | retrieveAll i =>
      refine h.onBuffer fun b hraw hcontent hsize => ?_
      rw [List.drop_length]
      exact holds_ok (RawBuffer.retrieveAll_leaves hsize)
  | ensureWritableBytes i len =>
      have hkeep := h.onBuffer (i := i) (c := q.queues i)
        (f := (·.ensureWritableBytes len)) fun b hraw hcontent hsize => by
          have hlen : (s.bufs i).Sized len := hop
          rw [hraw] at hlen
          rw [← hcontent]
          exact holds_mono (RawBuffer.ensureWritableBytes_leaves hsize hlen)
            fun r hr => hr.1
      rw [Function.update_eq_self] at hkeep
      exact hkeep
  | write i data =>
      refine h.onBuffer fun b hraw hcontent hsize => ?_
      have hlen : data.length ≤ (s.bufs i).writableBytes := hop
      rw [hraw, RawBuffer.writableBytes_raw hsize] at hlen
      rw [← hcontent]
      exact RawBuffer.write_leaves hsize hlen
  | swap i j => exact holds_ok (h.swap i j)

theorem run {ops : List BufferOp} : ∀ {s : RawBuffers} {q : ByteQueues},
    Refines s q → Along RawBuffers.step RawBuffers.Legal s ops →
      Holds (Machine.run RawBuffers.step s ops) fun t =>
        Refines t (ops.foldl ByteQueues.step q) := by
  induction ops with
  | nil => exact fun h _ => holds_ok h
  | cons op ops ih =>
      intro s q h hlegal
      obtain ⟨s', hs', href⟩ := h.step op hlegal.1
      rw [run_cons_ok ops hs', List.foldl_cons]
      exact ih href (hlegal.2 s' hs')

end Refines

/-- In every run of operations on buffers as they were constructed no
assertion fails and no copy leaves the vector, the indices stay in order,
and the readable bytes and the returned strings are those of the byte
queues. A buffer whose bytes were never prepended to has the cheap room
in front. -/
theorem buffer_refines_queue (ops : List BufferOp)
    (h : Along RawBuffers.step RawBuffers.Legal .start ops) :
    ∃ s, run RawBuffers.step .start ops = .ok s
      ∧ s.returned = (ops.foldl ByteQueues.step .start).returned
      ∧ ∀ i, (s.bufs i).readerIndex ≤ (s.bufs i).writerIndex
        ∧ (s.bufs i).writerIndex ≤ (s.bufs i).buffer.length
        ∧ (s.bufs i).content = (ops.foldl ByteQueues.step .start).queues i
        ∧ ((ops.foldl ByteQueues.step .start).prepended i = false →
            kCheapPrepend ≤ (s.bufs i).prependableBytes) := by
  obtain ⟨s, hrun, href⟩ := Refines.start.run h
  refine ⟨s, hrun, href.returned, fun i => ?_⟩
  obtain ⟨b, hraw, hcontent, -, hcheap⟩ := href.shows i
  rw [hraw]
  exact ⟨b.reader_le, b.writer_le, hcontent, hcheap⟩

/-- Bytes appended, taken, prepended and handed to another buffer. -/
theorem buffer_refines_queue_swapped :
    ∃ s, run RawBuffers.step .start
        [.append 0 [1, 2, 3], .retrieveAsString 0 2, .prepend 0 [9],
          .swap 0 1, .write 1 [4], .ensureWritableBytes 1 2000] = .ok s
      ∧ s.returned = [[1, 2]]
      ∧ (s.bufs 1).content = [9, 3, 4]
      ∧ kCheapPrepend ≤ (s.bufs 0).prependableBytes := by
  obtain ⟨s, hrun, hret, hbufs⟩ := buffer_refines_queue
    [.append 0 [1, 2, 3], .retrieveAsString 0 2, .prepend 0 [9],
      .swap 0 1, .write 1 [4], .ensureWritableBytes 1 2000]
    (along_of_check (by decide +kernel))
  exact ⟨s, hrun, hret, (hbufs 1).2.2.1, (hbufs 0).2.2.2 rfl⟩

/-- Without the marks: a buffer that `prepend` was never called on gets
the prepended bytes of another one by `swap`, and with them its smaller
room in front. -/
theorem swap_hands_over_small_room :
    ∃ ops s, Along RawBuffers.step RawBuffers.Legal .start ops
      ∧ run RawBuffers.step .start ops = .ok s
      ∧ (∀ data, BufferOp.prepend 1 data ∉ ops)
      ∧ (s.bufs 1).prependableBytes < kCheapPrepend := by
  obtain ⟨s, hrun, hroom⟩ := map_ok_inv
    (show (run RawBuffers.step .start [.prepend 0 [9], .swap 0 1]).map
      (fun s => (s.bufs 1).prependableBytes) = .ok 7 by decide +kernel)
  refine ⟨_, s, along_of_check (by decide +kernel), hrun, ?_, ?_⟩
  · intro data hmem
    simp only [List.mem_cons, BufferOp.prepend.injEq, List.not_mem_nil,
      reduceCtorEq, or_false] at hmem
    exact absurd hmem.1 (by decide)
  · rw [hroom]
    decide

end Cobra
