/-
What the member functions of `Buffer` do when the vector may refuse to
grow (Cobra.VecBuffer), for every reachable buffer.

# What calls keep

`Sound`: the indices are in order, the vector is not larger than a
vector gets, and the writer index is not in front of where `retrieveAll`
puts it. With a reservation whose size is a `size_t`, nothing wraps in
`makeSpace`, so that the calls are those of Cobra.RawBuffer unless the
vector refuses (`ensureWritableBytes_granted`); what they do is then read
off Cobra.Proofs.RawBuffer. A reservation whose size wraps ends in a
failed assertion or cuts the vector off in front of the writer index
(`ensureWritableBytes_wraps`).

# How a call ends

`Ends x P Q`: the call returns and the result meets `P`, or the vector
refuses and the buffer as it is then meets `Q`. No assertion fails and
no copy leaves the vector.
-/
import Cobra.VecBuffer
import Cobra.Proofs.RawBuffer

namespace Cobra

open Machine Window

-- ==================================================== how a call ends

namespace VecBuffer

/-- The call returns with `P`, or the vector refuses and leaves `Q`. -/
inductive Ends {α : Type} : Except VecFault α → (α → Prop) →
    (RawBuffer → Prop) → Prop
  | returned {a : α} {P : α → Prop} {Q : RawBuffer → Prop} (h : P a) :
      Ends (.ok a) P Q
  | refused {left : RawBuffer} {P : α → Prop} {Q : RawBuffer → Prop}
      (h : Q left) : Ends (.error (.refused left)) P Q

section Ends

variable {α β : Type} {x : Except VecFault α} {P P' : α → Prop}
  {Q Q' : RawBuffer → Prop}

theorem Ends.of_ok {a : α} (h : Ends x P Q) (hx : x = .ok a) : P a := by
  cases h with
  | returned h =>
      cases hx
      exact h
  | refused h => cases hx

/-- A call that the vector cannot have refused returns. -/
theorem Ends.holds (h : Ends x P Q) (hQ : ∀ left, ¬ Q left) : Holds x P := by
  cases h with
  | returned h => exact holds_ok h
  | refused h => exact absurd h (hQ _)

theorem ends_mono (h : Ends x P Q) (hP : ∀ a, P a → P' a)
    (hQ : ∀ left, Q left → Q' left) : Ends x P' Q' := by
  cases h with
  | returned h => exact .returned (hP _ h)
  | refused h => exact .refused (hQ _ h)

theorem ends_bind {f : α → Except VecFault β} {R : β → Prop}
    (hx : Ends x P Q) (hf : ∀ a, P a → Ends (f a) R Q) :
    Ends (x >>= f) R Q := by
  cases hx with
  | returned h => exact hf _ h
  | refused h => exact .refused h

theorem ends_map {g : α → β} {R : β → Prop} (hx : Ends x P Q)
    (hg : ∀ a, P a → R (g a)) : Ends (x.map g) R Q := by
  cases hx with
  | returned h => exact .returned (hg _ h)
  | refused h => exact .refused h

/-- A call that does not ask the vector for more. -/
theorem ends_of_holds {y : Except RawFault α} (h : Holds y P) :
    Ends (y.mapError .fault) P Q := by
  obtain ⟨a, rfl, ha⟩ := h
  exact .returned ha

theorem ends_require {p : Prop} [Decidable p] {f : RawFault}
    {g : Unit → Except VecFault α} (hp : p) (hg : Ends (g ()) P Q) :
    Ends (require p (.fault f) >>= g) P Q := by
  rw [require_bind hp]
  exact hg

end Ends

end VecBuffer

-- ================================================== what the calls keep

/-- The indices are in order, the vector has a size that vectors have,
and the writer index is not in front of the cheap prepend room. -/
def RawBuffer.Sound (r : RawBuffer) : Prop :=
  ∃ b : Buffer, r = b.raw ∧ b.buffer.length ≤ maxSize
    ∧ kCheapPrepend ≤ b.writerIndex

namespace RawBuffer

/-- What a call leaves: the content `c` in a sound buffer, and the room
in front if it was there. -/
def Keeps (b : Buffer) (c : List UInt8) (r : RawBuffer) : Prop :=
  Leaves b c r ∧ kCheapPrepend ≤ r.writerIndex

theorem Keeps.sound {b : Buffer} {c : List UInt8} {r : RawBuffer}
    (h : Keeps b c r) : r.Sound := by
  obtain ⟨⟨b', rfl, -, hsize, -⟩, hw⟩ := h
  exact ⟨b', rfl, hsize, hw⟩

theorem Keeps.content {b : Buffer} {c : List UInt8} {r : RawBuffer}
    (h : Keeps b c r) : r.content = c := by
  obtain ⟨⟨b', rfl, hc, -, -⟩, -⟩ := h
  exact hc

/-- The order of the indices. -/
theorem Sound.ordered {r : RawBuffer} (h : r.Sound) :
    r.readerIndex ≤ r.writerIndex ∧ r.writerIndex ≤ r.buffer.length := by
  obtain ⟨b, rfl, -, -⟩ := h
  exact ⟨b.reader_le, b.writer_le⟩

theorem new_raw : Buffer.empty.raw = new := rfl

theorem empty_writerIndex : Buffer.empty.writerIndex = kCheapPrepend := rfl

theorem new_sound : new.Sound :=
  ⟨.empty, rfl, by decide +kernel, Nat.le_refl _⟩

variable {b r : RawBuffer}

theorem retrieve_writerIndex {len : Nat} (h : b.retrieve len = .ok r) :
    r.writerIndex = b.writerIndex ∨ r.writerIndex = kCheapPrepend := by
  unfold retrieve at h
  obtain ⟨_, -, h⟩ := bind_ok_inv h
  split at h
  · cases h
    exact .inl rfl
  · cases h
    exact .inr rfl

theorem prepend_writerIndex {data : List UInt8}
    (h : b.prepend data = .ok r) : r.writerIndex = b.writerIndex := by
  unfold prepend copy at h
  obtain ⟨_, -, h⟩ := bind_ok_inv h
  obtain ⟨_, -, h⟩ := bind_ok_inv h
  cases h
  rfl

/-- `makeSpace` resizes the vector, or moves the content inside it. -/
theorem makeSpace_inv {len : Nat} (h : b.makeSpace len = .ok r) :
    VecBuffer.Grows b len
        ∧ r = { b with buffer := resize b.buffer (plus b.writerIndex len) 0 }
      ∨ kCheapPrepend < b.readerIndex ∧ r.buffer.length = b.buffer.length
        ∧ r.writerIndex = plus kCheapPrepend b.readableBytes := by
  unfold makeSpace at h
  split at h
  next hgrows =>
    cases h
    exact .inl ⟨hgrows, rfl⟩
  next =>
    obtain ⟨_, hfront, h⟩ := bind_ok_inv h
    obtain ⟨data, -, h⟩ := bind_ok_inv h
    obtain ⟨b', hcopy, h⟩ := bind_ok_inv h
    obtain ⟨_, -, h⟩ := bind_ok_inv h
    obtain ⟨_, hfits, hcopy⟩ := bind_ok_inv hcopy
    cases hcopy
    cases h
    exact .inr ⟨require_inv hfront, length_overlay (require_inv hfits), rfl⟩

end RawBuffer

-- ========================================================== reservations

namespace VecBuffer

open RawBuffer

/-- A reservation that the vector does not refuse. -/
theorem ensureWritableBytes_granted {alloc : Nat → Bool} {b : RawBuffer}
    {len : Nat}
    (h : ¬ Refuses alloc b len) :
    ensureWritableBytes alloc b len
      = (b.ensureWritableBytes len).mapError .fault := by
  have hroom : makeRoom alloc b len = (b.makeRoom len).mapError .fault := by
    unfold makeRoom RawBuffer.makeRoom makeSpace
    split
    next hlt => exact if_neg fun hno => h ⟨hlt, hno⟩
    next => rfl
  unfold ensureWritableBytes RawBuffer.ensureWritableBytes
  rw [hroom]
  cases b.makeRoom len with
  | error f => rfl
  | ok b' =>
      show (require _ _ >>= fun _ => _)
        = (require _ _ >>= fun _ => _ : Except RawFault RawBuffer).mapError _
      unfold require
      split <;> rfl

/-- A reservation that it refuses. -/
theorem ensureWritableBytes_refused {alloc : Nat → Bool} {b : RawBuffer}
    {len : Nat} (h : Refuses alloc b len) :
    ensureWritableBytes alloc b len = .error (.refused b) := by
  unfold ensureWritableBytes makeRoom makeSpace
  rw [if_pos h.1, if_pos h.2]
  rfl

/-- The end of the content moved to the front. -/
theorem front_plus {b : Buffer} (hb : b.buffer.length ≤ maxSize) :
    plus kCheapPrepend b.raw.readableBytes
      = kCheapPrepend + b.readableBytes := by
  have hlast := b.writer_le
  have hcheap := cheap_lt_sizeMod hb
  rw [readableBytes_raw hb]
  apply plus_of_lt
  unfold Buffer.readableBytes
  omega

section Sound

variable {b : Buffer} (hb : b.buffer.length ≤ maxSize)
  (hw : kCheapPrepend ≤ b.writerIndex)
include hb hw

/-- The test of `makeSpace`, when the size asked for is a `size_t`. -/
theorem grows_iff {len : Nat} (hfit : b.writerIndex + len < sizeMod) :
    Grows b.raw len
      ↔ b.writableBytes + b.prependableBytes < len + kCheapPrepend := by
  have hr := b.reader_le
  have hlast := b.writer_le
  have hsum : b.writableBytes + b.prependableBytes < sizeMod := by
    apply lt_sizeMod
    unfold Buffer.writableBytes Buffer.prependableBytes
    omega
  have hlen : plus len kCheapPrepend = len + kCheapPrepend :=
    plus_of_lt (by omega)
  unfold Grows
  rw [writableBytes_raw hb, hlen]
  exact iff_of_eq (congrArg (· < _) (plus_of_lt hsum))

/-- A size the vector is not refused is one that it may have. -/
theorem sized_of_granted {alloc : Nat → Bool} {len : Nat}
    (hfit : b.writerIndex + len < sizeMod) (h : ¬ Refuses alloc b.raw len)
    (hroom : b.raw.writableBytes < len) : b.raw.Sized len := by
  have hplus : plus b.raw.writerIndex len = b.writerIndex + len :=
    plus_of_lt hfit
  have hless := hroom
  rw [writableBytes_raw hb] at hless
  have hr := b.reader_le
  have hlast := b.writer_le
  by_cases hgrows : Grows b.raw len
  · have hgranted : Granted alloc b.raw (plus b.raw.writerIndex len) := by
      by_contra hno
      exact h ⟨hroom, hgrows, hno⟩
    have hmax : b.writerIndex + len ≤ maxSize := by
      unfold Granted at hgranted
      rw [hplus] at hgranted
      have hsize : b.raw.buffer.length = b.buffer.length := rfl
      unfold Buffer.writableBytes at hless
      omega
    refine ⟨by omega, ?_⟩
    unfold grownSize
    split
    · exact hmax
    · exact hb
  · have htest := (grows_iff hb hw hfit).not.mp hgrows
    refine ⟨?_, ?_⟩
    · unfold Buffer.writableBytes Buffer.prependableBytes at htest
      omega
    · unfold grownSize
      rw [writableBytes_raw hb, if_neg fun hboth => htest hboth.2]
      exact hb

/-- A reservation whose size is a `size_t` makes the room and keeps the
content, or the vector refuses and nothing has changed. -/
theorem ensureWritableBytes_ends (alloc : Nat → Bool) {len : Nat}
    (hfit : b.writerIndex + len < sizeMod) :
    Ends (ensureWritableBytes alloc b.raw len)
      (fun r => Keeps b b.content r ∧ len ≤ r.writableBytes)
      (fun left => left = b.raw ∧ Refuses alloc b.raw len) := by
  by_cases hno : Refuses alloc b.raw len
  · rw [ensureWritableBytes_refused hno]
    exact .refused ⟨rfl, hno⟩
  · rw [ensureWritableBytes_granted hno]
    apply ends_of_holds
    by_cases hroom : b.raw.writableBytes < len
    · have hsized := sized_of_granted hb hw hfit hno hroom
      obtain ⟨r, hr, hleaves, hlen⟩ := ensureWritableBytes_leaves hb hsized
      refine ⟨r, hr, ⟨hleaves, ?_⟩, hlen⟩
      obtain ⟨r', hmake, hrest⟩ := bind_ok_inv hr
      obtain ⟨_, -, hok⟩ := bind_ok_inv hrest
      cases hok
      unfold RawBuffer.makeRoom at hmake
      rw [if_pos hroom] at hmake
      obtain ⟨-, rfl⟩ | ⟨-, -, hfront⟩ := makeSpace_inv hmake
      · exact hw
      · rw [hfront, front_plus hb]
        exact Nat.le_add_right ..
    · refine ⟨b.raw, ?_, ⟨⟨b, rfl, rfl, hb, id⟩, hw⟩, Nat.le_of_not_lt hroom⟩
      unfold RawBuffer.ensureWritableBytes RawBuffer.makeRoom
      rw [if_neg hroom]
      exact require_bind (Nat.le_of_not_lt hroom) _

/-- A reservation whose size wraps fails an assertion, or cuts the vector
off in front of the writer index. -/
theorem ensureWritableBytes_wraps (alloc : Nat → Bool) {len : Nat}
    (hlen : len < sizeMod) (hno : sizeMod ≤ b.writerIndex + len) :
    (∃ f, ensureWritableBytes alloc b.raw len = .error (.fault f))
      ∨ ∃ r, ensureWritableBytes alloc b.raw len = .ok r
        ∧ r.writerIndex = b.writerIndex
        ∧ r.buffer.length < r.writerIndex := by
  have hr := b.reader_le
  have hlast := b.writer_le
  have hhalf : sizeMod = maxSize + maxSize := by decide
  have hpos : 0 < kCheapPrepend := by decide
  have hcut : plus b.raw.writerIndex len = b.writerIndex + len - sizeMod := by
    have hsub : b.writerIndex + len = b.writerIndex + len - sizeMod + sizeMod := by
      omega
    show (b.writerIndex + len) % sizeMod = _
    rw [hsub, Nat.add_mod_right, Nat.mod_eq_of_lt (by omega)]
    omega
  have hgranted : Granted alloc b.raw (plus b.raw.writerIndex len) := by
    rw [hcut]
    left
    show _ ≤ b.buffer.length
    omega
  have hroom : b.raw.writableBytes < len := by
    rw [writableBytes_raw hb]
    unfold Buffer.writableBytes
    omega
  rw [ensureWritableBytes_granted fun hno => hno.2.2 hgranted]
  cases hens : b.raw.ensureWritableBytes len with
  | error f => exact .inl ⟨f, rfl⟩
  | ok r =>
      refine .inr ⟨r, rfl, ?_⟩
      obtain ⟨r', hmake, hrest⟩ := bind_ok_inv hens
      obtain ⟨_, hassert, hok⟩ := bind_ok_inv hrest
      cases hok
      have hassert := require_inv hassert
      unfold RawBuffer.makeRoom at hmake
      rw [if_pos hroom] at hmake
      obtain ⟨-, rfl⟩ | ⟨hfront, hsize, hwriter⟩ := makeSpace_inv hmake
      · refine ⟨rfl, ?_⟩
        show (resize _ _ _).length < b.writerIndex
        rw [length_resize, hcut]
        omega
      · -- moving the content never makes that much room
        have hfront : kCheapPrepend < b.readerIndex := hfront
        have hsize : r.buffer.length = b.buffer.length := hsize
        have hroom' : r.writableBytes
            = b.buffer.length - (kCheapPrepend + b.readableBytes) := by
          unfold writableBytes
          rw [hsize, hwriter, front_plus hb]
          apply minus_of_le _ (lt_sizeMod hb)
          unfold Buffer.readableBytes
          omega
        omega

-- ============================================================== writing

theorem write_keeps {data : List UInt8}
    (h : data.length ≤ b.writableBytes) :
    Holds (b.raw.write data) (Keeps b (b.content ++ data)) := by
  obtain ⟨r, hr, hleaves⟩ := write_leaves hb h
  refine ⟨r, hr, hleaves, ?_⟩
  obtain ⟨b', hcopy, hok⟩ := bind_ok_inv hr
  obtain ⟨_, -, hcopy⟩ := bind_ok_inv hcopy
  cases hcopy
  cases hok
  have hlast := b.writer_le
  have hfits : b.writerIndex + data.length < sizeMod := by
    apply lt_sizeMod
    unfold Buffer.writableBytes at h
    omega
  show kCheapPrepend ≤ plus b.writerIndex data.length
  rw [plus_of_lt hfits]
  omega

/-- `append` adds the bytes at the back, or the vector refuses and
nothing has changed. -/
theorem appendFrom_ends (alloc : Nat → Bool) {mem : List UInt8} {len : Nat}
    (hmem : len ≤ mem.length) (hfit : b.writerIndex + len < sizeMod) :
    Ends (appendFrom alloc b.raw mem len)
      (Keeps b (b.content ++ mem.take len))
      (fun left => left = b.raw ∧ Refuses alloc b.raw len) := by
  unfold appendFrom
  apply ends_bind (ensureWritableBytes_ends hb hw alloc hfit)
  rintro r ⟨⟨⟨b', rfl, hcontent, hsize, hcheap⟩, hw'⟩, hroom⟩
  apply ends_require hmem
  apply ends_of_holds
  rw [writableBytes_raw hsize] at hroom
  have hroom : (mem.take len).length ≤ b'.writableBytes := by
    rw [List.length_take, Nat.min_eq_left hmem]
    exact hroom
  apply holds_mono (write_keeps hsize hw' hroom)
  rintro r ⟨⟨b'', rfl, hcontent', hsize', hcheap'⟩, hw''⟩
  rw [hcontent] at hcontent'
  exact ⟨⟨b'', rfl, hcontent', hsize', fun hc => hcheap' (hcheap hc)⟩, hw''⟩

/-- An `append` whose size wraps does not get through. -/
theorem appendFrom_wraps (alloc : Nat → Bool) (mem : List UInt8) {len : Nat}
    (hlen : len < sizeMod) (hno : sizeMod ≤ b.writerIndex + len) :
    ∃ f, appendFrom alloc b.raw mem len = .error (.fault f) := by
  unfold appendFrom
  obtain ⟨f, hens⟩ | ⟨r, hens, -, hcut⟩ :=
    ensureWritableBytes_wraps hb hw alloc hlen hno
  · rw [hens]
    exact ⟨f, rfl⟩
  · rw [hens, ok_bind]
    by_cases hmem : len ≤ mem.length
    · refine ⟨.outOfBounds, ?_⟩
      rw [require_bind hmem]
      unfold write copy
      rw [require_fail (by omega)]
      rfl
    · exact ⟨.outOfBounds, require_fail hmem _⟩

/-- An `append` that returns has added the bytes. -/
theorem appendFrom_inv {alloc : Nat → Bool} {mem : List UInt8} {len : Nat}
    {r : RawBuffer} (hlen : len < sizeMod)
    (h : appendFrom alloc b.raw mem len = .ok r) :
    len ≤ mem.length ∧ Keeps b (b.content ++ mem.take len) r := by
  have hmem : len ≤ mem.length := by
    obtain ⟨_, -, hrest⟩ := bind_ok_inv h
    obtain ⟨_, hreq, -⟩ := bind_ok_inv hrest
    exact require_inv hreq
  refine ⟨hmem, ?_⟩
  by_cases hfit : b.writerIndex + len < sizeMod
  · exact (appendFrom_ends hb hw alloc hmem hfit).of_ok h
  · obtain ⟨f, hfault⟩ :=
      appendFrom_wraps hb hw alloc mem hlen (Nat.le_of_not_lt hfit)
    rw [hfault] at h
    cases h

omit hb hw in
/-- Counting the bytes that were put behind the content. -/
theorem write_of_fill {r filled : RawBuffer} {data : List UInt8}
    (h : fill r data = .ok filled) :
    r.write data = .ok (filled.hasWritten data.length) := by
  unfold write
  unfold fill at h
  rw [h]
  rfl

/-- Bytes put behind the content are not part of it. -/
theorem fill_keeps {data : List UInt8}
    (h : data.length ≤ b.writableBytes) :
    Holds (fill b.raw data) fun r =>
      r = { b.raw with buffer := overlay b.buffer b.writerIndex data }
        ∧ Keeps b b.content r := by
  have hlast := b.writer_le
  have hfits : b.writerIndex + data.length ≤ b.buffer.length := by
    unfold Buffer.writableBytes at h
    omega
  have hsize := length_overlay hfits
  let b' : Buffer :=
    { buffer := overlay b.buffer b.writerIndex data
      readerIndex := b.readerIndex
      writerIndex := b.writerIndex
      reader_le := b.reader_le
      writer_le := by rw [hsize]; exact hlast
      prepend_le := by rw [hsize]; exact b.prepend_le }
  unfold fill copy
  refine holds_require hfits (holds_ok ⟨rfl, ⟨b', rfl, ?_, ?_, id⟩, hw⟩)
  · exact slice_overlay_behind (Nat.le_refl _) hlast
  · exact hsize.symm ▸ hb

theorem hasWritten_sound {len : Nat} (h : len ≤ b.writableBytes) :
    (b.raw.hasWritten len).Sound := by
  have hr := b.reader_le
  have hlast := b.writer_le
  have hfits : b.writerIndex + len ≤ b.buffer.length := by
    unfold Buffer.writableBytes at h
    omega
  let b' : Buffer :=
    { b with
      writerIndex := b.writerIndex + len
      reader_le := by omega
      writer_le := hfits }
  refine ⟨b', ?_, hb, Nat.le_trans hw (Nat.le_add_right ..)⟩
  unfold hasWritten Buffer.raw
  rw [plus_of_lt (lt_sizeMod (Nat.le_trans hfits hb))]

-- ============================================================== reading

omit hw in
/-- `readv` writes no more than `extrabuf` beyond the writable bytes. -/
theorem length_le_of_iovLen {n : Nat} (h : n ≤ iovLen b.raw) :
    n ≤ b.writableBytes + Buffer.kExtraSize := by
  unfold iovLen at h
  rw [writableBytes_raw hb] at h
  split at h <;> omega

omit hw in
/-- With all writable bytes written, the content ends where the vector
does. -/
theorem hasWritten_full {filled : RawBuffer}
    (hsize : filled.buffer.length = b.buffer.length)
    (hindex : filled.writerIndex = b.writerIndex) :
    filled.hasWritten b.writableBytes
      = { filled with writerIndex := filled.buffer.length } := by
  have hlast := b.writer_le
  have hend : b.writerIndex + b.writableBytes = b.buffer.length := by
    unfold Buffer.writableBytes
    omega
  have hplus : plus filled.writerIndex b.writableBytes
      = filled.buffer.length := by
    have hlt : b.writerIndex + b.writableBytes < sizeMod := by
      rw [hend]
      exact lt_sizeMod hb
    rw [hindex, hsize, plus_of_lt hlt, hend]
  unfold hasWritten
  rw [hplus]

omit hw in
/-- Where `readFd` goes on: the last branch is not taken. -/
theorem readBranch_filled {data : List UInt8}
    (hdata : data.length ≤ iovLen b.raw) :
    readBranch b.raw (.filled data)
      = if data.length ≤ b.writableBytes then .fits else .spills := by
  have hplus : plus b.raw.writableBytes Buffer.kExtraSize
      = b.writableBytes + Buffer.kExtraSize := by
    have hroom : maxSize + Buffer.kExtraSize < sizeMod := by decide
    rw [writableBytes_raw hb]
    apply plus_of_lt
    unfold Buffer.writableBytes
    omega
  have hbound := length_le_of_iovLen hb hdata
  have hpos : ¬ (Readv.filled data).n < 0 := by
    show ¬ (data.length : Int) < 0
    omega
  unfold readBranch
  rw [if_neg hpos, hplus, writableBytes_raw hb]
  show (if data.length ≤ _ then _ else if data.length ≤ _ then _ else _) = _
  rw [if_pos hbound]

omit hw in
theorem readBranch_ne_beyond {r : Readv} (hr : r.data.length ≤ iovLen b.raw) :
    readBranch b.raw r ≠ .beyond := by
  cases r with
  | failed errno => exact nofun
  | filled data =>
      have hdata : data.length ≤ iovLen b.raw := hr
      rw [readBranch_filled hb hdata]
      split <;> exact nofun

omit hw in
/-- The branch of `readFd` in which `extrabuf` was needed. -/
theorem spills_ends (alloc : Nat → Bool) {data : List UInt8}
    {filled : RawBuffer} (hmore : b.writableBytes < data.length)
    (hdata : data.length ≤ iovLen b.raw)
    (hfilled : filled = { b.raw with
      buffer := overlay b.buffer b.writerIndex (data.take b.writableBytes) })
    (hwritten : Keeps b (b.content ++ data.take b.writableBytes)
      (filled.hasWritten (data.take b.writableBytes).length)) :
    Ends (afterReadv alloc filled b.writableBytes (.filled data) .spills)
      (fun res => res.1 = (Readv.filled data).n ∧ res.2.1 = none
        ∧ Keeps b (b.content ++ data) res.2.2)
      (fun left => ReadBranch.spills = .spills
        ∧ Keeps b (b.content ++ data.take b.writableBytes) left
        ∧ left.buffer.length = b.buffer.length
        ∧ ¬ Granted alloc left
            (b.buffer.length + (data.length - b.writableBytes))) := by
  have hlast := b.writer_le
  have htake : (data.take b.writableBytes).length = b.writableBytes := by
    rw [List.length_take]
    omega
  have hsame : filled.buffer.length = b.buffer.length := by
    rw [hfilled]
    apply length_overlay
    rw [htake]
    unfold Buffer.writableBytes
    omega
  have hfull : { filled with writerIndex := filled.buffer.length }
      = filled.hasWritten (data.take b.writableBytes).length := by
    rw [htake]
    exact (hasWritten_full hb hsame (congrArg RawBuffer.writerIndex hfilled)).symm
  have hbound := length_le_of_iovLen hb hdata
  have hroom : maxSize + Buffer.kExtraSize < sizeMod := by decide
  have hrest : minus (Readv.filled data).n.toNat b.writableBytes
      = data.length - b.writableBytes := by
    apply minus_of_le (Nat.le_of_lt hmore)
    show data.length < sizeMod
    unfold Buffer.writableBytes at hbound
    omega
  obtain ⟨⟨b', hraw, hcontent, hsize, hcheap⟩, hw'⟩ := hwritten
  have hwriter : b'.writerIndex = b.buffer.length :=
    (congrArg RawBuffer.writerIndex (hfull.trans hraw)).symm.trans hsame
  have hlength : b'.buffer.length = b.buffer.length :=
    (congrArg (fun r : RawBuffer => r.buffer.length) hraw).symm.trans hsame
  have hfit : b'.writerIndex + (data.length - b.writableBytes) < sizeMod := by
    omega
  have hlen : (data.drop b.writableBytes).length
      = data.length - b.writableBytes := List.length_drop ..
  have hall : (data.drop b.writableBytes).take (data.length - b.writableBytes)
      = data.drop b.writableBytes :=
    List.take_of_length_le (Nat.le_of_eq hlen)
  unfold afterReadv
  rw [hfull, hraw, hrest]
  rw [hraw] at hw'
  apply ends_bind (ends_mono (appendFrom_ends hsize hw' alloc
    (Nat.le_of_eq hlen.symm) hfit) (fun _ h => h) ?_)
  · rintro r ⟨⟨b'', rfl, hcontent', hsize', hcheap'⟩, hw''⟩
    refine .returned ⟨rfl, rfl, ⟨b'', rfl, ?_, hsize',
      fun hc => hcheap' (hcheap hc)⟩, hw''⟩
    rw [hcontent', hcontent, hall, List.append_assoc, List.take_append_drop]
  · rintro left ⟨rfl, hno⟩
    have hgrow := hno.2.2
    have hplus : plus b'.raw.writerIndex (data.length - b.writableBytes)
        = b.buffer.length + (data.length - b.writableBytes) := by
      rw [← hwriter]
      exact plus_of_lt hfit
    rw [hplus] at hgrow
    exact ⟨rfl, ⟨⟨b', rfl, hcontent, hsize, hcheap⟩, hw'⟩, hlength, hgrow⟩

/-- `readFd` adds what was read at the back. When it did not fit and the
vector refuses, the part that fitted has been added. -/
theorem readFd_ends (alloc : Nat → Bool) {r : Readv}
    (hr : r.data.length ≤ iovLen b.raw) :
    Ends (readFd alloc b.raw r)
      (fun res => res.1 = r.n ∧ res.2.1 = r.errno
        ∧ Keeps b (b.content ++ r.data) res.2.2)
      (fun left => readBranch b.raw r = .spills
        ∧ Keeps b (b.content ++ r.data.take b.writableBytes) left
        ∧ left.buffer.length = b.buffer.length
        ∧ ¬ Granted alloc left
            (b.buffer.length + (r.data.length - b.writableBytes))) := by
  have hfirst : (r.data.take b.writableBytes).length ≤ b.writableBytes :=
    List.length_take_le ..
  obtain ⟨filled, hfill, hfilled, hkeeps⟩ := fill_keeps hb hw hfirst
  have hstart : readFd alloc b.raw r
      = afterReadv alloc filled b.writableBytes r (readBranch b.raw r) := by
    unfold readFd
    rw [writableBytes_raw hb]
    unfold fill at hfill
    rw [hfill]
    rfl
  rw [hstart]
  cases r with
  | failed errno =>
      refine .returned ⟨rfl, rfl, ?_⟩
      rw [show (Readv.failed errno).data = [] from rfl, List.append_nil]
      exact hkeeps
  | filled data =>
      have hdata : data.length ≤ iovLen b.raw := hr
      rw [readBranch_filled hb hdata]
      have hwrite := write_of_fill hfill
      have hwritten := (write_keeps hb hw hfirst).of_ok hwrite
      split
      next hfits =>
        rw [show (Readv.filled data).data = data from rfl,
          List.take_of_length_le hfits] at hwritten
        exact .returned ⟨rfl, rfl, hwritten⟩
      next hmore =>
        exact spills_ends hb alloc (Nat.lt_of_not_le hmore) hdata hfilled
          hwritten

end Sound

-- ============================================================= shrinking

/-- A new buffer with room for `n` bytes. -/
def roomy (n : Nat) : Buffer where
  buffer := resize Buffer.empty.buffer
    (max (kCheapPrepend + kInitialSize) (kCheapPrepend + n)) 0
  readerIndex := kCheapPrepend
  writerIndex := kCheapPrepend
  reader_le := Nat.le_refl _
  writer_le := by
    rw [length_resize]
    omega
  prepend_le := by
    rw [length_resize]
    omega

theorem length_roomy (n : Nat) : (roomy n).buffer.length
    = max (kCheapPrepend + kInitialSize) (kCheapPrepend + n) :=
  length_resize ..

theorem content_roomy (n : Nat) : (roomy n).content = [] := slice_self ..

/-- The reservation that `shrink` makes in its new buffer. -/
theorem ensureWritableBytes_new {alloc : Nat → Bool} {n : Nat}
    (hn : kCheapPrepend + n ≤ maxSize)
    (halloc : alloc (kCheapPrepend + n) = true) :
    ensureWritableBytes alloc .new n = .ok (roomy n).raw := by
  have hroom : RawBuffer.new.writableBytes = kInitialSize := by decide +kernel
  have hfit : kCheapPrepend + n < sizeMod := lt_sizeMod hn
  have hplus : plus RawBuffer.new.writerIndex n = kCheapPrepend + n :=
    plus_of_lt hfit
  have hgranted : Granted alloc .new (plus RawBuffer.new.writerIndex n) := by
    rw [hplus]
    exact .inr ⟨hn, halloc⟩
  have hlength : Buffer.empty.buffer.length = kCheapPrepend + kInitialSize :=
    List.length_replicate ..
  rw [ensureWritableBytes_granted fun hno => hno.2.2 hgranted]
  unfold RawBuffer.ensureWritableBytes RawBuffer.makeRoom
  by_cases hlt : kInitialSize < n
  · have htest : plus kInitialSize RawBuffer.new.prependableBytes
        < plus n kCheapPrepend := by
      show plus kInitialSize kCheapPrepend < _
      rw [plus_of_lt (by decide), plus_of_lt (by omega)]
      omega
    have hmax : max (kCheapPrepend + kInitialSize) (kCheapPrepend + n)
        = kCheapPrepend + n := by omega
    have hgrown : (roomy n).raw = { RawBuffer.new with
        buffer := resize RawBuffer.new.buffer (kCheapPrepend + n) 0 } := by
      show RawBuffer.mk (resize _ _ _) _ _ = _
      rw [hmax]
      rfl
    have hless : n ≤ (roomy n).raw.writableBytes := by
      rw [writableBytes_raw (by rw [length_roomy, hmax]; exact hn)]
      unfold Buffer.writableBytes
      rw [length_roomy, hmax]
      exact Nat.le_sub_of_add_le (Nat.le_of_eq (Nat.add_comm ..))
    unfold RawBuffer.makeSpace
    rw [hroom, if_pos hlt, if_pos htest, hplus, ← hgrown, ok_bind, require_bind hless]
    rfl
  · have hmax : max (kCheapPrepend + kInitialSize) (kCheapPrepend + n)
        = Buffer.empty.buffer.length := by omega
    have hsame : (roomy n).raw = RawBuffer.new := by
      show RawBuffer.mk (resize _ _ _) _ _ = _
      rw [hmax, resize_self]
      rfl
    rw [hroom, if_neg hlt, ok_bind, hroom,
      require_bind (Nat.le_of_not_lt hlt), hsame]
    rfl

/-- An `append` into room that is there. -/
theorem appendFrom_fits {b : Buffer} (hb : b.buffer.length ≤ maxSize)
    (alloc : Nat → Bool) {mem : List UInt8} {len : Nat}
    (hroom : (mem.take len).length ≤ b.writableBytes)
    (hmem : len ≤ mem.length) :
    appendFrom alloc b.raw mem len = .ok (b.write (mem.take len) hroom).raw := by
  have hlast := b.writer_le
  have hlen : (mem.take len).length = len := by
    rw [List.length_take, Nat.min_eq_left hmem]
  have hless : len ≤ b.raw.writableBytes := by
    rw [writableBytes_raw hb, ← hlen]
    exact hroom
  have hfits : b.raw.writerIndex + (mem.take len).length
      ≤ b.raw.buffer.length := by
    show b.writerIndex + _ ≤ b.buffer.length
    unfold Buffer.writableBytes at hroom
    omega
  have hplus : plus b.raw.writerIndex (mem.take len).length
      = b.writerIndex + (mem.take len).length :=
    plus_of_lt (lt_sizeMod (Nat.le_trans hfits hb))
  unfold appendFrom ensureWritableBytes makeRoom
  rw [if_neg (Nat.not_lt.mpr hless), ok_bind, require_bind hless, ok_bind,
    require_bind hmem]
  unfold write copy
  rw [require_bind hfits]
  unfold hasWritten
  rw [ok_bind, hplus]
  rfl

/-- The bytes that `toStringPiece` points at, as far as it says. -/
theorem toStringPiece_take (b : Buffer) :
    (toStringPiece b.raw).data.take b.readableBytes = b.content := by
  show (b.buffer.drop b.readerIndex).take (b.writerIndex - b.readerIndex) = _
  unfold Buffer.content slice
  rw [List.drop_take]

/-- `shrink` of a content that an `int` can count. -/
theorem shrink_small {b : Buffer} (hb : b.buffer.length ≤ maxSize)
    {alloc : Nat → Bool} {reserve : Nat} (hsmall : b.readableBytes < intMod)
    (hmax : kCheapPrepend + (b.readableBytes + reserve) ≤ maxSize)
    (hnew : alloc (kCheapPrepend + kInitialSize) = true)
    (hgrow : alloc (kCheapPrepend + (b.readableBytes + reserve)) = true) :
    ∃ b' : Buffer, shrink alloc b.raw reserve = .ok b'.raw
      ∧ b'.content = b.content ∧ b'.readerIndex = kCheapPrepend
      ∧ reserve ≤ b'.writableBytes
      ∧ b'.buffer.length = max (kCheapPrepend + kInitialSize)
          (kCheapPrepend + (b.readableBytes + reserve)) := by
  have hlast := b.writer_le
  have hpiece := toStringPiece_take b
  have hmem : b.readableBytes ≤ (toStringPiece b.raw).data.length := by
    show b.writerIndex - b.readerIndex ≤ (b.buffer.drop b.readerIndex).length
    rw [List.length_drop]
    omega
  have hlen : castSize (toStringPiece b.raw).size = b.readableBytes := by
    show castSize (castInt b.raw.readableBytes) = _
    rw [readableBytes_raw hb, castInt_of_lt hsmall]
    apply castSize_of_nat
    apply lt_sizeMod
    omega
  have hsum : plus b.raw.readableBytes reserve = b.readableBytes + reserve := by
    rw [readableBytes_raw hb]
    exact plus_of_lt (lt_sizeMod (by omega))
  have hsize : (roomy (b.readableBytes + reserve)).buffer.length ≤ maxSize := by
    have hinit : kCheapPrepend + kInitialSize ≤ maxSize := by decide
    rw [length_roomy]
    omega
  have hroom : ((toStringPiece b.raw).data.take b.readableBytes).length
      ≤ (roomy (b.readableBytes + reserve)).writableBytes := by
    unfold Buffer.writableBytes
    rw [length_roomy, hpiece, Buffer.length_content]
    show _ ≤ _ - kCheapPrepend
    omega
  have hfits : kCheapPrepend
      + ((toStringPiece b.raw).data.take b.readableBytes).length
      ≤ (roomy (b.readableBytes + reserve)).buffer.length := by
    rw [length_roomy, hpiece, Buffer.length_content]
    omega
  have hgrown := (length_overlay hfits).trans (length_roomy _)
  refine ⟨(roomy (b.readableBytes + reserve)).write _ hroom, ?_, ?_, rfl,
    ?_, hgrown⟩
  · unfold shrink shrinkOther create appendPiece
    rw [if_pos hnew, ok_bind, hsum, ensureWritableBytes_new hmax hgrow,
      ok_bind, hlen, appendFrom_fits hsize alloc hroom hmem]
    rfl
  · rw [Buffer.content_write, content_roomy, List.nil_append, hpiece]
  · show _ ≤ (overlay _ _ _).length - (kCheapPrepend + _)
    have hcount : ((toStringPiece b.raw).data.take b.readableBytes).length
        = b.readableBytes := by
      rw [hpiece, Buffer.length_content]
    rw [show (roomy _).writerIndex = kCheapPrepend from rfl, hgrown, hcount]
    omega

/-- A reservation in a new buffer. -/
theorem ensureWritableBytes_new_ends (alloc : Nat → Bool) {len : Nat}
    (hfit : kCheapPrepend + len < sizeMod) :
    Ends (ensureWritableBytes alloc .new len)
      (fun r => Keeps .empty [] r ∧ len ≤ r.writableBytes)
      (fun left => left = .new ∧ Refuses alloc .new len) := by
  have hsize : Buffer.empty.buffer.length ≤ maxSize := by decide +kernel
  have hends := ensureWritableBytes_ends hsize
    (Nat.le_of_eq empty_writerIndex.symm) alloc
    (empty_writerIndex.symm ▸ hfit)
  rw [Buffer.content_empty, new_raw] at hends
  exact hends

/-- A `shrink` that returns has copied as many bytes as the two
conversions leave of their number. -/
theorem shrink_inv {b : Buffer} {alloc : Nat → Bool} {reserve : Nat}
    {r : RawBuffer}
    (hfit : kCheapPrepend + plus b.raw.readableBytes reserve < sizeMod)
    (h : shrink alloc b.raw reserve = .ok r) :
    castSize (castInt b.raw.readableBytes) ≤ b.buffer.length - b.readerIndex
      ∧ r.Sound
      ∧ r.content = (toStringPiece b.raw).data.take
          (castSize (castInt b.raw.readableBytes)) := by
  have hlen : castSize (castInt b.raw.readableBytes) < sizeMod := by
    have hcast := castSize_castInt b.raw.readableBytes
    have hint : intMod < sizeMod := by decide
    omega
  obtain ⟨other, hother, h⟩ := bind_ok_inv (mapError_ok_inv h)
  obtain ⟨room, hroom, h⟩ := bind_ok_inv h
  unfold create at hother
  split at hother
  · cases hother
    obtain ⟨⟨⟨b', rfl, hcontent, hsize', -⟩, hw'⟩, -⟩ :=
      (ensureWritableBytes_new_ends alloc hfit).of_ok hroom
    obtain ⟨hmem, hkeeps⟩ := appendFrom_inv hsize' hw' hlen h
    refine ⟨?_, hkeeps.sound, ?_⟩
    · rw [← List.length_drop]
      exact hmem
    · rw [hkeeps.content, hcontent]
      rfl
  · cases hother

end VecBuffer

-- ================================================= the reachable buffers

namespace BufferCall

open RawBuffer VecBuffer

theorem caught_inv {x : Except VecFault RawBuffer} {r : RawBuffer}
    (h : caught x = .ok r) : x = .ok r ∨ x = .error (.refused r) := by
  match x, h with
  | .ok b, h =>
      cases h
      exact .inl rfl
  | .error (.refused left), h =>
      cases h
      exact .inr rfl

/-- A call that ends in sound buffers leads to one. -/
theorem caught_sound {x : Except VecFault RawBuffer} {r : RawBuffer}
    (hx : Ends x RawBuffer.Sound RawBuffer.Sound) (h : caught x = .ok r) :
    r.Sound := by
  cases hx with
  | returned hx =>
      cases h
      exact hx
  | refused hx =>
      cases h
      exact hx

/-- What `retrieve` leaves. -/
theorem retrieve_sound {b : Buffer} {r : RawBuffer} {len : Nat}
    (hb : b.buffer.length ≤ maxSize) (hw : kCheapPrepend ≤ b.writerIndex)
    (h : b.raw.retrieve len = .ok r) : r.Sound := by
  have hlen : len ≤ b.readableBytes := by
    obtain ⟨_, hreq, -⟩ := bind_ok_inv h
    rw [← readableBytes_raw hb]
    exact require_inv hreq
  obtain ⟨b', rfl, -, hsize, -⟩ := (retrieve_leaves hb hlen).of_ok h
  refine ⟨b', rfl, hsize, ?_⟩
  obtain hsame | hreset := retrieve_writerIndex h
  · exact Nat.le_trans hw (Nat.le_of_eq hsame.symm)
  · exact Nat.le_of_eq hreset.symm

theorem step_sound {b r : RawBuffer} {call : BufferCall} (hb : b.Sound)
    (hlegal : Legal b call) (h : step b call = .ok r) : r.Sound := by
  obtain ⟨b, rfl, hsize, hw⟩ := hb
  cases call with
  | append alloc data =>
      refine caught_sound ?_ h
      refine ends_mono (appendFrom_ends hsize hw alloc (Nat.le_refl _) hlegal)
        (fun r hr => hr.sound) ?_
      rintro left ⟨rfl, -⟩
      exact ⟨b, rfl, hsize, hw⟩
  | prepend data =>
      obtain ⟨b', rfl, -, hsize'⟩ := (prepend_shows hsize hlegal).of_ok h
      refine ⟨b', rfl, hsize', ?_⟩
      exact Nat.le_trans hw (Nat.le_of_eq (prepend_writerIndex h).symm)
  | retrieve len => exact retrieve_sound hsize hw h
  | retrieveUntil n =>
      obtain ⟨_, -, h⟩ := bind_ok_inv h
      obtain ⟨_, -, h⟩ := bind_ok_inv h
      exact retrieve_sound hsize hw h
  | retrieveAsString len =>
      obtain ⟨⟨str, b'⟩, hstr, rfl⟩ := map_ok_inv h
      obtain ⟨_, -, h⟩ := bind_ok_inv hstr
      obtain ⟨_, -, h⟩ := bind_ok_inv h
      obtain ⟨b'', h, hok⟩ := bind_ok_inv h
      cases hok
      exact retrieve_sound hsize hw h
  | retrieveAll =>
      cases h
      exact ⟨b.retrieveAll, rfl, hsize, Nat.le_refl _⟩
  | ensureWritableBytes alloc len =>
      refine caught_sound ?_ h
      refine ends_mono (ensureWritableBytes_ends hsize hw alloc hlegal)
        (fun r hr => hr.1.sound) ?_
      rintro left ⟨rfl, -⟩
      exact ⟨b, rfl, hsize, hw⟩
  | fill data =>
      have hlen : data.length ≤ b.raw.writableBytes := hlegal
      rw [writableBytes_raw hsize] at hlen
      exact ((fill_keeps hsize hw hlen).of_ok h).2.sound
  | hasWritten len =>
      have hlen : len ≤ b.raw.writableBytes := hlegal
      rw [writableBytes_raw hsize] at hlen
      cases h
      exact hasWritten_sound hsize hw hlen
  | readFd alloc r =>
      refine caught_sound (ends_map (ends_mono
        (readFd_ends hsize hw alloc hlegal) (fun res hres => hres.2.2.sound)
        (fun left hleft => hleft.2.1.sound)) fun _ hsound => hsound) h
  | shrink alloc reserve =>
      obtain hok | hno := caught_inv h
      · exact (shrink_inv hlegal hok).2.1
      · obtain ⟨e, -, he⟩ := mapError_error_inv hno
        cases e with
        | refused left =>
            cases he
            exact ⟨b, rfl, hsize, hw⟩
        | fault f => cases he

end BufferCall

theorem Reachable.sound {b : RawBuffer} (h : Reachable b) : b.Sound := by
  obtain ⟨calls, halong, hrun⟩ := h
  exact run_inv (fun _ _ _ hs hc hstep => BufferCall.step_sound hs hc hstep)
    RawBuffer.new_sound halong hrun

theorem Reachable.new : Reachable .new := ⟨[], along_nil _, rfl⟩

/-- One call more. -/
theorem Reachable.step {b r : RawBuffer} {call : BufferCall}
    (h : Reachable b) (hlegal : BufferCall.Legal b call)
    (hstep : BufferCall.step b call = .ok r) : Reachable r := by
  obtain ⟨calls, halong, hrun⟩ := h
  refine ⟨calls ++ [call], along_snoc halong hrun hlegal, ?_⟩
  rw [run_append [call] hrun, run_cons_ok [] hstep]
  rfl

/-- An `append` that returns is such a call. -/
theorem Reachable.append {b r : RawBuffer} {alloc : Nat → Bool}
    {data : List UInt8} (h : Reachable b)
    (hfit : b.writerIndex + data.length < sizeMod)
    (hok : VecBuffer.append alloc b data = .ok r) : Reachable r := by
  have hstep : BufferCall.step b (.append alloc data) = .ok r := by
    show BufferCall.caught (VecBuffer.append alloc b data) = .ok r
    rw [hok]
    rfl
  have hlegal : BufferCall.Legal b (.append alloc data) := hfit
  exact h.step hlegal hstep

-- ========================================================== the results

namespace VecBuffer

open RawBuffer

/-- `readFd` adds what was read at the back of the content, and its last
branch is not taken. Only when the bytes did not fit and the vector
refuses to grow, it does not return. -/
theorem readFd_appends_read {b : RawBuffer} (hb : Reachable b)
    (alloc : Nat → Bool) {r : Readv} (hr : r.data.length ≤ iovLen b) :
    readBranch b r ≠ .beyond
      ∧ Ends (readFd alloc b r)
        (fun res => res.1 = r.n ∧ res.2.2.content = b.content ++ r.data
          ∧ res.2.2.readerIndex ≤ res.2.2.writerIndex
          ∧ res.2.2.writerIndex ≤ res.2.2.buffer.length)
        (fun left => readBranch b r = .spills
          ∧ left.readerIndex ≤ left.writerIndex
          ∧ left.writerIndex ≤ left.buffer.length
          ∧ ¬ Granted alloc b
              (b.buffer.length + (r.data.length - b.writableBytes))) := by
  obtain ⟨b, rfl, hsize, hw⟩ := hb.sound
  refine ⟨readBranch_ne_beyond hsize hr,
    ends_mono (readFd_ends hsize hw alloc hr) ?_ ?_⟩
  · rintro res ⟨hn, -, hkeeps⟩
    exact ⟨hn, hkeeps.content, hkeeps.sound.ordered⟩
  · rintro left ⟨hspills, hkeeps, hsame, hno⟩
    unfold Granted at hno
    rw [hsame] at hno
    rw [writableBytes_raw hsize]
    exact ⟨hspills, hkeeps.sound.ordered.1, hkeeps.sound.ordered.2, hno⟩

/-- More bytes than a new buffer has room for. -/
def longRead : Readv := .filled (List.replicate 1030 7)

theorem readFd_appends_read_spilled :
    ∃ res, readFd (fun _ => true) .new longRead = .ok res
      ∧ res.1 = 1030 ∧ res.2.2.content = List.replicate 1030 7 := by
  have hlen : longRead.data.length ≤ iovLen .new := by decide +kernel
  have hgranted : Granted (fun _ => true) .new
      (RawBuffer.new.buffer.length
        + (longRead.data.length - RawBuffer.new.writableBytes)) := by
    decide +kernel
  obtain ⟨-, hends⟩ := readFd_appends_read Reachable.new (fun _ => true) hlen
  obtain ⟨res, hok, hn, hcontent, -⟩ :=
    hends.holds fun _ hno => hno.2.2.2 hgranted
  refine ⟨res, hok, hn.trans (by decide +kernel), ?_⟩
  rw [hcontent, show RawBuffer.new.content = [] from slice_self ..,
    List.nil_append]
  rfl

-- -------------------------------------------------------- reservations

/-- A reservation makes the room and keeps the content, or the vector
refuses and nothing has changed, exactly when the size asked for is a
`size_t`. -/
theorem ensureWritableBytes_safe_iff {b : RawBuffer} (hb : Reachable b)
    (alloc : Nat → Bool) {len : Nat} (hlen : len < sizeMod) :
    Ends (ensureWritableBytes alloc b len)
        (fun r => len ≤ r.writableBytes ∧ r.content = b.content
          ∧ r.readerIndex ≤ r.writerIndex
          ∧ r.writerIndex ≤ r.buffer.length)
        (fun left => left = b)
      ↔ b.writerIndex + len < sizeMod := by
  obtain ⟨b, rfl, hsize, hw⟩ := hb.sound
  constructor
  · intro hends
    by_contra hno
    obtain ⟨f, hfault⟩ | ⟨r, hok, -, hcut⟩ :=
      ensureWritableBytes_wraps hsize hw alloc hlen (Nat.le_of_not_lt hno)
    · rw [hfault] at hends
      cases hends
    · have hordered := (hends.of_ok hok).2.2.2
      omega
  · intro hfit
    apply ends_mono (ensureWritableBytes_ends hsize hw alloc hfit)
    · rintro r ⟨hkeeps, hroom⟩
      exact ⟨hroom, hkeeps.content, hkeeps.sound.ordered⟩
    · rintro left ⟨rfl, -⟩
      rfl

/-- The calls that put twenty bytes into a new buffer. -/
def twentyBytes : List BufferCall :=
  [.append (fun _ => true) (List.replicate 20 65)]

theorem ensureWritableBytes_safe_iff_grown :
    Ends (ensureWritableBytes (fun _ => true) .new 2000)
      (fun r => 2000 ≤ r.writableBytes
        ∧ r.content = RawBuffer.new.content
        ∧ r.readerIndex ≤ r.writerIndex
        ∧ r.writerIndex ≤ r.buffer.length)
      (fun left => left = .new) :=
  (ensureWritableBytes_safe_iff Reachable.new (fun _ => true)
    (show 2000 < sizeMod by decide)).mpr (by decide)

/-- The length of a piece that says `-10`: the vector is cut off in front
of the writer index and `ensureWritableBytes` returns. -/
theorem ensureWritableBytes_cuts_vector :
    ∃ b r, Reachable b ∧ b.content = List.replicate 20 65
      ∧ ensureWritableBytes (fun _ => true) b (castSize (-10)) = .ok r
      ∧ r.buffer.length < r.writerIndex := by
  obtain ⟨b, hrun, hb⟩ := map_ok_inv
    (g := fun b : RawBuffer => (b.content,
      (ensureWritableBytes (fun _ => true) b (castSize (-10))).map
        fun r : RawBuffer => decide (r.buffer.length < r.writerIndex)))
    (c := (List.replicate 20 65, .ok true))
    (show (run BufferCall.step .new twentyBytes).map _ = .ok _ by
      decide +kernel)
  obtain ⟨hcontent, hens⟩ := Prod.mk.inj hb
  obtain ⟨r, hr, hcut⟩ := map_ok_inv hens
  exact ⟨b, r, ⟨twentyBytes, along_of_check (by decide +kernel), hrun⟩,
    hcontent, hr, of_decide_eq_true hcut⟩

-- ------------------------------------------------------------- shrinking

/-- When there is memory for it, `shrink` keeps the content and leaves a
vector of the size that was asked for, exactly when an `int` can count
the content. -/
theorem shrink_keeps_content_iff {b : RawBuffer} (hb : Reachable b)
    (alloc : Nat → Bool) {reserve : Nat}
    (hmax : kCheapPrepend + (b.readableBytes + reserve) ≤ maxSize)
    (hnew : alloc (kCheapPrepend + kInitialSize) = true)
    (hgrow : alloc (kCheapPrepend + (b.readableBytes + reserve)) = true) :
    (∃ r, shrink alloc b reserve = .ok r
        ∧ r.content = b.content ∧ r.prependableBytes = kCheapPrepend
        ∧ reserve ≤ r.writableBytes
        ∧ r.buffer.length = max (kCheapPrepend + kInitialSize)
            (kCheapPrepend + (b.readableBytes + reserve)))
      ↔ b.readableBytes < intMod := by
  obtain ⟨b, rfl, hsize, hw⟩ := hb.sound
  have hread := readableBytes_raw hsize
  have hlast := b.writer_le
  constructor
  · rintro ⟨r, hok, hcontent, -⟩
    have hfit : kCheapPrepend + plus b.raw.readableBytes reserve < sizeMod := by
      rw [plus_of_lt (lt_sizeMod (by omega))]
      exact lt_sizeMod hmax
    obtain ⟨hlen, -, hcopied⟩ := shrink_inv hfit hok
    -- as many bytes were copied as the conversions leave of their number
    have hcount : castSize (castInt b.raw.readableBytes)
        = b.raw.readableBytes := by
      have hlength := congrArg List.length (hcopied.symm.trans hcontent)
      rw [List.length_take, show b.raw.content.length = b.readableBytes from
        b.length_content, ← hread] at hlength
      have hmem : (toStringPiece b.raw).data.length
          = b.buffer.length - b.readerIndex := List.length_drop ..
      omega
    apply (castSize_castInt_eq_iff _).mp hcount
    have hbound : maxSize < sizeMod - intMod := by decide
    omega
  · intro hsmall
    rw [hread] at hsmall hmax hgrow ⊢
    obtain ⟨b', hok, hcontent, hreader, hroom, hgrown⟩ :=
      shrink_small hsize hsmall hmax hnew hgrow
    refine ⟨b'.raw, hok, hcontent, hreader, ?_, hgrown⟩
    rw [writableBytes_raw]
    · exact hroom
    · have hinit : kCheapPrepend + kInitialSize ≤ maxSize := by decide
      omega

theorem shrink_keeps_content_iff_new :
    ∃ r, shrink (fun _ => true) .new 3000 = .ok r
      ∧ r.content = RawBuffer.new.content
      ∧ r.prependableBytes = kCheapPrepend ∧ 3000 ≤ r.writableBytes
      ∧ r.buffer.length = 3008 := by
  obtain ⟨r, hok, hcontent, hfront, hroom, hsize⟩ :=
    (shrink_keeps_content_iff Reachable.new (fun _ => true)
      (show kCheapPrepend + (RawBuffer.new.readableBytes + 3000) ≤ maxSize by
        decide +kernel) rfl rfl).mpr (by decide +kernel)
  exact ⟨r, hok, hcontent, hfront, hroom, hsize.trans (by decide +kernel)⟩

/-- A message of `n` bytes. -/
def message (n : Nat) : List UInt8 := List.replicate n 65

theorem length_message (n : Nat) : (message n).length = n :=
  List.length_replicate ..

/-- A message too long for an `int`, appended to a new buffer. -/
theorem append_long_message :
    Holds (append (fun _ => true) .new (message intMod))
      (Keeps .empty (message intMod)) := by
  have hsize : Buffer.empty.buffer.length ≤ maxSize := by decide +kernel
  have hfit : Buffer.empty.writerIndex + (message intMod).length
      < sizeMod := by
    rw [empty_writerIndex, length_message]
    decide
  have hmax : Buffer.empty.writerIndex + (message intMod).length
      ≤ maxSize := by
    rw [empty_writerIndex, length_message]
    decide
  have hends := appendFrom_ends hsize (Nat.le_of_eq empty_writerIndex.symm)
    (fun _ => true) (Nat.le_refl (message intMod).length) hfit
  rw [Buffer.content_empty, List.nil_append, List.take_length, new_raw] at hends
  unfold append
  have hgranted : Granted (fun _ => true) RawBuffer.new
      (plus Buffer.empty.writerIndex (message intMod).length) := by
    rw [plus_of_lt hfit]
    exact .inr ⟨hmax, rfl⟩
  exact hends.holds fun _ hno => hno.2.2.2 hgranted

/-- `shrink` of a buffer with `2 ^ 31` readable bytes does not return. -/
theorem shrink_loses_long_content :
    ∃ b, Reachable b ∧ b.content = message intMod
      ∧ ∀ r, shrink (fun _ => true) b 0 ≠ .ok r := by
  obtain ⟨r, hok, hkeeps⟩ := append_long_message
  have hfit : RawBuffer.new.writerIndex + (message intMod).length
      < sizeMod := by
    rw [length_message]
    decide
  have hreach := Reachable.new.append hfit hok
  refine ⟨r, hreach, hkeeps.content, fun r' hshrink => ?_⟩
  obtain ⟨⟨b, rfl, hcontent, hsize, -⟩, -⟩ := hkeeps
  have hread : b.raw.readableBytes = intMod := by
    rw [readableBytes_raw hsize, ← Buffer.length_content, hcontent,
      length_message]
  have hfit : kCheapPrepend + plus b.raw.readableBytes 0 < sizeMod := by
    rw [hread]
    decide
  have hcast : maxSize < castSize (castInt intMod) := by decide
  have hlen := (shrink_inv hfit hshrink).1
  rw [hread] at hlen
  omega

end VecBuffer

end Cobra
