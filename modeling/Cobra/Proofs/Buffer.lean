/-
`Buffer` is a byte queue: `append` adds at the back of the content,
`retrieve` drops from its front, and making room leaves it alone. No
assertion of the source fails on the way.

`makeSpace` asserts that there is something in front of the content to
move it over. That holds because it is called only when the room behind
the content is too small while the room on both sides together is
enough.
-/
import Cobra.Buffer

namespace Cobra.Buffer

open Machine Window

variable {b : Buffer}

-- ============================================================= retrieve

theorem content_empty : empty.content = [] := slice_self ..

theorem content_retrieveAll (b : Buffer) : b.retrieveAll.content = [] :=
  slice_self ..

/-- The content is empty when nothing is readable. -/
theorem content_eq_nil : b.content = [] ↔ b.readableBytes = 0 := by
  rw [← length_content, List.length_eq_zero_iff]

theorem retrieve_ok {len : Nat} (h : len ≤ b.readableBytes) :
    Holds (b.retrieve len) fun b' => b'.content = b.content.drop len := by
  unfold retrieve
  apply holds_require h
  split
  next =>
    apply holds_ok
    unfold content
    exact slice_add ..
  next hge =>
    apply holds_ok
    rw [content_retrieveAll, List.drop_eq_nil_of_le]
    rw [length_content]
    omega

-- =============================================================== append

/-- Making room leaves the content alone. -/
theorem makeSpace_ok {len : Nat} (hlen : b.writableBytes < len) :
    Holds (b.makeSpace len hlen) fun b' =>
      b'.content = b.content ∧ len ≤ b'.writableBytes := by
  have hr := b.reader_le
  have hw := b.writer_le
  unfold makeSpace
  split
  next =>
    refine holds_ok ⟨?_, ?_⟩
    · exact slice_resize 0 hw (Nat.le_add_right ..)
    · unfold writableBytes
      simp only [length_resize]
      omega
  next henough =>
    -- too little room behind, enough on both sides: some is in front
    have hfront : kCheapPrepend < b.readerIndex := by
      unfold prependableBytes at henough
      omega
    rw [dif_pos hfront]
    refine holds_require ?_ (holds_ok ⟨?_, ?_⟩)
    · unfold readableBytes
      simp only
      omega
    · unfold content
      simp only
      rw [← length_content]
      exact slice_overlay_self b.prepend_le
    · have hover := length_overlay (b.front_le hfront)
      unfold writableBytes prependableBytes at henough
      unfold writableBytes readableBytes
      simp only [hover]
      omega

theorem ensureWritableBytes_ok (b : Buffer) (len : Nat) :
    Holds (b.ensureWritableBytes len) fun b' => b'.1.content = b.content := by
  have hroom : Holds (b.makeRoom len) fun b' =>
      b'.content = b.content ∧ len ≤ b'.writableBytes := by
    unfold makeRoom
    split
    next h => exact makeSpace_ok h
    next h => exact holds_ok ⟨rfl, Nat.le_of_not_lt h⟩
  unfold ensureWritableBytes
  refine holds_bind hroom fun b' hb => ?_
  rw [dif_pos hb.2]
  exact holds_ok hb.1

theorem content_write {data : List UInt8}
    (h : data.length ≤ b.writableBytes) :
    (b.write data h).content = b.content ++ data :=
  slice_overlay b.reader_le b.writer_le

/-- `append` adds at the back. -/
theorem append_ok (b : Buffer) (data : List UInt8) :
    Holds (b.append data) fun b' => b'.content = b.content ++ data := by
  unfold append
  refine holds_bind (ensureWritableBytes_ok b data.length) fun b' hb => ?_
  apply holds_ok
  rw [content_write, hb]

/-- `prepend` adds at the front. -/
theorem content_prepend {data : List UInt8}
    (h : data.length ≤ b.prependableBytes) :
    (b.prepend data h).content = data ++ b.content := by
  have hsplit : b.readerIndex - data.length + data.length = b.readerIndex :=
    Nat.sub_add_cancel h
  unfold content prepend
  simp only
  rw [slice_overlay_front (by rw [hsplit]; exact b.reader_le) b.writer_le,
    hsplit]

/-- `readFd` adds what `readv` has read. -/
theorem readFd_ok {data : List UInt8} (h : data.length ≤ b.readvSize) :
    Holds (b.readFd data) fun b' => b'.content = b.content ++ data := by
  unfold readFd
  split
  next hfit => exact holds_ok (content_write hfit)
  next hmore =>
    have hextra : data.length ≤ b.writableBytes + kExtraSize := by
      unfold readvSize at h
      split at h <;> omega
    rw [if_pos hextra]
    refine holds_mono (append_ok ..) fun b' hb => ?_
    rw [hb, content_write, List.append_assoc, List.take_append_drop]

end Cobra.Buffer
