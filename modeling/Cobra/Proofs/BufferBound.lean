/-
How large the vector of a `Buffer` gets: by what is readable when room is
asked for and by how much is asked for at once, and not by how many bytes
have gone through.

# Why it does not creep

`makeSpace` grows the vector without moving the content, so the dead
bytes in front of it stay and are counted again at the next growth. But
it only grows when the dead bytes and the room behind would not do: there
are fewer than `len + kCheapPrepend` of them. The new size is the dead
bytes, the content and `len`, hence less than `2 * len + kCheapPrepend`
and the content.

# Sizes that wrap

The bound is one without conditions on `L`. If all sizes asked for are
below a quarter of `size_t`, nothing wraps and the buffer stays `Sound`
on the way. If not, the bound is larger than any vector
(`step_le_maxSize`), whatever has become of the indices.
-/
import Cobra.Proofs.VecBuffer

namespace Cobra

open Machine Window

namespace BufferCall

open RawBuffer VecBuffer

/-- The appends, reservations, prepends and retrieves: room for at most
`L` bytes is asked for, when at most `R` are readable. A prepend and a
retrieve keep to what their assertions ask for. -/
def Traffic (R L : Nat) (b : RawBuffer) : BufferCall → Prop
  | .append _ data => data.length ≤ L ∧ b.readableBytes ≤ R
  | .ensureWritableBytes _ len => len ≤ L ∧ b.readableBytes ≤ R
  | .prepend data => data.length ≤ b.prependableBytes
  | .retrieve len => len ≤ b.readableBytes
  | .retrieveUntil n => n ≤ b.readableBytes
  | .retrieveAsString len => len ≤ b.readableBytes
  | .retrieveAll => True
  | .fill _ => False
  | .hasWritten _ => False
  | .readFd .. => False
  | .shrink .. => False

instance (R L : Nat) (b : RawBuffer) : ∀ call, Decidable (Traffic R L b call)
  | .append .. => inferInstanceAs (Decidable (_ ∧ _))
  | .ensureWritableBytes .. => inferInstanceAs (Decidable (_ ∧ _))
  | .prepend _ => inferInstanceAs (Decidable (_ ≤ _))
  | .retrieve _ => inferInstanceAs (Decidable (_ ≤ _))
  | .retrieveUntil _ => inferInstanceAs (Decidable (_ ≤ _))
  | .retrieveAsString _ => inferInstanceAs (Decidable (_ ≤ _))
  | .retrieveAll => .isTrue trivial
  | .fill _ => .isFalse id
  | .hasWritten _ => .isFalse id
  | .readFd .. => .isFalse id
  | .shrink .. => .isFalse id

-- ============================================ what a call does to the size

/-- The vector keeps its size, or it is resized for `len` more bytes. -/
def Resized (b : RawBuffer) (len : Nat) (r : RawBuffer) : Prop :=
  r.buffer.length = b.buffer.length
    ∨ b.writableBytes < len ∧ Grows b len
      ∧ r.buffer.length = plus b.writerIndex len
      ∧ r.buffer.length ≤ max b.buffer.length maxSize

section Sizes

variable {b r : RawBuffer} {alloc : Nat → Bool}

theorem copy_length {data : List UInt8} {i : Nat}
    (h : b.copy data i = .ok r) : r.buffer.length = b.buffer.length := by
  obtain ⟨_, hfits, hok⟩ := bind_ok_inv h
  cases hok
  exact length_overlay (require_inv hfits)

theorem retrieve_length {len : Nat} (h : b.retrieve len = .ok r) :
    r.buffer.length = b.buffer.length := by
  obtain ⟨_, -, hok⟩ := bind_ok_inv h
  split at hok
  · cases hok
    rfl
  · cases hok
    rfl

theorem ensureWritableBytes_resized {len : Nat}
    (h : VecBuffer.ensureWritableBytes alloc b len = .ok r) :
    Resized b len r := by
  obtain ⟨r', hroom, hrest⟩ := bind_ok_inv h
  obtain ⟨_, -, hok⟩ := bind_ok_inv hrest
  cases hok
  unfold VecBuffer.makeRoom VecBuffer.makeSpace at hroom
  split at hroom
  next hless =>
    split at hroom
    next => cases hroom
    next hgranted =>
      obtain ⟨hgrows, rfl⟩ | ⟨-, hsame, -⟩ :=
        makeSpace_inv (mapError_ok_inv hroom)
      · have hnew := length_resize b.buffer (plus b.writerIndex len) 0
        refine .inr ⟨hless, hgrows, hnew, ?_⟩
        have hgrant : Granted alloc b (plus b.writerIndex len) := by
          by_contra hno
          exact hgranted ⟨hgrows, hno⟩
        unfold Granted at hgrant
        show (resize ..).length ≤ _
        rw [hnew]
        omega
      · exact .inl hsame
  next =>
    cases hroom
    exact .inl rfl

theorem append_resized {data : List UInt8}
    (h : VecBuffer.append alloc b data = .ok r) :
    Resized b data.length r := by
  obtain ⟨b', hroom, hrest⟩ := bind_ok_inv h
  obtain ⟨_, -, hrest⟩ := bind_ok_inv hrest
  obtain ⟨b'', hcopy, hok⟩ := bind_ok_inv (mapError_ok_inv hrest)
  cases hok
  have hsame : b''.buffer.length = b'.buffer.length := copy_length hcopy
  have hresized := ensureWritableBytes_resized hroom
  unfold Resized at hresized ⊢
  show b''.buffer.length = _ ∨ _ ∧ _ ∧ b''.buffer.length = _
    ∧ b''.buffer.length ≤ _
  rw [hsame]
  exact hresized

/-- A reservation that is refused leaves the buffer alone. -/
theorem ensureWritableBytes_left {len : Nat} {left : RawBuffer}
    (h : VecBuffer.ensureWritableBytes alloc b len
      = .error (.refused left)) : left = b := by
  by_cases hno : Refuses alloc b len
  · rw [ensureWritableBytes_refused hno] at h
    cases h
    rfl
  · rw [ensureWritableBytes_granted hno] at h
    obtain ⟨f, -, hf⟩ := mapError_error_inv h
    cases hf

/-- So does an `append`: only its reservation is ever refused. -/
theorem append_left {data : List UInt8} {left : RawBuffer}
    (h : VecBuffer.append alloc b data = .error (.refused left)) :
    left = b := by
  obtain hens | ⟨b', -, hrest⟩ := bind_error_inv h
  · exact ensureWritableBytes_left hens
  · obtain hreq | ⟨_, -, hwrite⟩ := bind_error_inv hrest
    · cases require_error_inv hreq
    · obtain ⟨f, -, hf⟩ := mapError_error_inv hwrite
      cases hf

/-- The room that a call asks for. -/
def asked : BufferCall → Nat
  | .append _ data => data.length
  | .ensureWritableBytes _ len => len
  | _ => 0

/-- What the calls do to the size of the vector, in any state. -/
theorem step_resized {R L : Nat} {call : BufferCall}
    (htraffic : Traffic R L b call) (h : step b call = .ok r) :
    Resized b call.asked r := by
  cases call with
  | append alloc data =>
      obtain hok | hno := caught_inv h
      · exact append_resized hok
      · exact .inl (congrArg (·.buffer.length) (append_left hno))
  | ensureWritableBytes alloc len =>
      obtain hok | hno := caught_inv h
      · exact ensureWritableBytes_resized hok
      · exact .inl (congrArg (·.buffer.length) (ensureWritableBytes_left hno))
  | prepend data =>
      obtain ⟨_, -, hcopy⟩ := bind_ok_inv h
      let b' : RawBuffer :=
        { b with readerIndex := minus b.readerIndex data.length }
      have hsame : r.buffer.length = b'.buffer.length := copy_length hcopy
      exact .inl hsame
  | retrieve len => exact .inl (retrieve_length h)
  | retrieveUntil n =>
      obtain ⟨_, -, hrest⟩ := bind_ok_inv h
      obtain ⟨_, -, hret⟩ := bind_ok_inv hrest
      exact .inl (retrieve_length hret)
  | retrieveAsString len =>
      obtain ⟨⟨str, b'⟩, hstr, rfl⟩ := map_ok_inv h
      obtain ⟨_, -, hrest⟩ := bind_ok_inv hstr
      obtain ⟨_, -, hrest⟩ := bind_ok_inv hrest
      obtain ⟨b'', hret, hok⟩ := bind_ok_inv hrest
      cases hok
      exact .inl (retrieve_length hret)
  | retrieveAll =>
      cases h
      exact .inl rfl
  | fill data => cases htraffic
  | hasWritten len => cases htraffic
  | readFd alloc r => cases htraffic
  | shrink alloc reserve => cases htraffic

/-- No vector gets larger than vectors get. -/
theorem step_le_maxSize {R L : Nat} {call : BufferCall}
    (hb : b.buffer.length ≤ maxSize) (htraffic : Traffic R L b call)
    (h : step b call = .ok r) : r.buffer.length ≤ maxSize := by
  obtain hsame | ⟨-, -, -, hmax⟩ := step_resized htraffic h
  · rw [hsame]
    exact hb
  · exact Nat.le_trans hmax (Nat.max_le.2 ⟨hb, Nat.le_refl _⟩)

end Sizes

-- ============================================================== the bound

/-- A quarter of `size_t`: below it no size wraps. -/
def quarter : Nat := 2 ^ 62

def sizeBound (R L : Nat) : Nat :=
  max (kCheapPrepend + kInitialSize) (R + 2 * L + kCheapPrepend)

section Bound

variable {b r : RawBuffer} {R L : Nat} {call : BufferCall}

/-- The room asked for, and what was readable then. -/
theorem Traffic.asked_le (h : Traffic R L b call) (hpos : 0 < call.asked) :
    call.asked ≤ L ∧ b.readableBytes ≤ R := by
  cases call with
  | append alloc data => exact h
  | ensureWritableBytes alloc len => exact h
  | _ => exact absurd hpos (Nat.lt_irrefl 0)

/-- Sizes below a quarter of `size_t` do not wrap. -/
theorem fits_of_quarter (hL : L < quarter) (hb : b.Sound) {len : Nat}
    (hlen : len ≤ L) : b.writerIndex + len < sizeMod := by
  obtain ⟨b, rfl, hsize, -⟩ := hb
  have hlast := b.writer_le
  show b.writerIndex + len < sizeMod
  unfold quarter at hL
  unfold maxSize at hsize
  unfold sizeMod
  omega

/-- The vector grows only when the bytes in front of the content are
fewer than those asked for, up to the room in front. -/
theorem step_le_sizeBound (hL : L < quarter) (hb : b.Sound)
    (hsize : b.buffer.length ≤ sizeBound R L) (htraffic : Traffic R L b call)
    (h : step b call = .ok r) : r.buffer.length ≤ sizeBound R L := by
  obtain hsame | ⟨hroom, hgrows, hnew, -⟩ := step_resized htraffic h
  · rw [hsame]
    exact hsize
  · obtain ⟨hasked, hreadable⟩ :=
      htraffic.asked_le (Nat.lt_of_le_of_lt (Nat.zero_le _) hroom)
    have hfit := fits_of_quarter hL hb hasked
    obtain ⟨b, rfl, hmax, hw⟩ := hb
    have hdead := (grows_iff hmax hw hfit).1 hgrows
    rw [readableBytes_raw hmax] at hreadable
    have hplus : plus b.raw.writerIndex call.asked
        = b.writerIndex + call.asked := plus_of_lt hfit
    have hr := b.reader_le
    have hgrown : r.buffer.length ≤ R + 2 * L + kCheapPrepend := by
      rw [hnew, hplus]
      unfold Buffer.readableBytes at hreadable
      unfold Buffer.prependableBytes at hdead
      omega
    exact Nat.le_trans hgrown (Nat.le_max_right ..)

/-- With such sizes the calls are legal. -/
theorem Traffic.legal (hL : L < quarter) (hb : b.Sound)
    (h : Traffic R L b call) : Legal b call := by
  cases call with
  | append alloc data =>
      show b.writerIndex + data.length < sizeMod
      exact fits_of_quarter hL hb h.1
  | ensureWritableBytes alloc len =>
      show b.writerIndex + len < sizeMod
      exact fits_of_quarter hL hb h.1
  | prepend data => exact h
  | retrieve len => exact h
  | retrieveUntil n => exact h
  | retrieveAsString len => exact h
  | retrieveAll => trivial
  | fill data => cases h
  | hasWritten len => cases h
  | readFd alloc r => cases h
  | shrink alloc reserve => cases h

/-- A call that ends and is not a fault returns to the caller. -/
theorem caught_returns {x : Except VecFault RawBuffer}
    {P Q : RawBuffer → Prop} (h : Ends x P Q) : ∃ r, caught x = .ok r := by
  cases h with
  | returned h => exact ⟨_, rfl⟩
  | refused h => exact ⟨_, rfl⟩

/-- No such call fails an assertion or leaves the vector. -/
theorem step_returns (hL : L < quarter) (hb : b.Sound)
    (h : Traffic R L b call) : ∃ r, step b call = .ok r := by
  have hlegal := h.legal hL hb
  obtain ⟨b, rfl, hsize, hw⟩ := hb
  have hread {n : Nat} (hn : n ≤ b.raw.readableBytes) :
      n ≤ b.readableBytes := by
    rw [← readableBytes_raw hsize]
    exact hn
  cases call with
  | append alloc data =>
      exact caught_returns
        (appendFrom_ends hsize hw alloc (Nat.le_refl _) hlegal)
  | ensureWritableBytes alloc len =>
      exact caught_returns (ensureWritableBytes_ends hsize hw alloc hlegal)
  | prepend data =>
      obtain ⟨r, hr, -⟩ := prepend_shows hsize h
      exact ⟨r, hr⟩
  | retrieve len =>
      obtain ⟨r, hr, -⟩ := retrieve_leaves hsize (hread h)
      exact ⟨r, hr⟩
  | retrieveUntil n =>
      obtain ⟨r, hr, -⟩ := retrieveUntil_leaves hsize (hread h)
      exact ⟨r, hr⟩
  | retrieveAsString len =>
      obtain ⟨⟨str, r⟩, hr, -⟩ := retrieveAsString_leaves hsize (hread h)
      refine ⟨r, ?_⟩
      show (b.raw.retrieveAsString len).map (·.2) = .ok r
      rw [hr]
      rfl
  | retrieveAll => exact ⟨_, rfl⟩
  | fill data => cases h
  | hasWritten len => cases h
  | readFd alloc r => cases h
  | shrink alloc reserve => cases h

end Bound

end BufferCall

-- ============================================================ the results

open BufferCall in
/-- The vector is bounded by the content that calls find and the room
that they ask for, over a run of any length. If no size wraps, the run
does not fail either. -/
theorem buffer_size_bounded (R L : Nat) (calls : List BufferCall)
    (h : Along BufferCall.step (Traffic R L) .new calls) :
    (∀ b, run BufferCall.step .new calls = .ok b →
        b.buffer.length
          ≤ max (kCheapPrepend + kInitialSize) (R + 2 * L + kCheapPrepend))
      ∧ (L < quarter → ∃ b, run BufferCall.step .new calls = .ok b) := by
  have hnew : RawBuffer.new.buffer.length ≤ sizeBound R L := by
    unfold RawBuffer.new sizeBound
    rw [List.length_replicate]
    exact Nat.le_max_left ..
  constructor
  · intro b hrun
    show b.buffer.length ≤ sizeBound R L
    by_cases hL : L < quarter
    · have hinv : b.Sound ∧ b.buffer.length ≤ sizeBound R L := by
        refine run_inv
          (I := fun b => b.Sound ∧ b.buffer.length ≤ sizeBound R L)
          ?_ ⟨RawBuffer.new_sound, hnew⟩ h hrun
        intro b call r hb htraffic hstep
        exact ⟨step_sound hb.1 (htraffic.legal hL hb.1) hstep,
          step_le_sizeBound hL hb.1 hb.2 htraffic hstep⟩
      exact hinv.2
    · have hmax : b.buffer.length ≤ maxSize := by
        refine run_inv (I := fun b => b.buffer.length ≤ maxSize) ?_ ?_ h hrun
        · intro b call r hb htraffic hstep
          exact step_le_maxSize hb htraffic hstep
        · obtain ⟨b, hb, hsize, -⟩ := RawBuffer.new_sound
          rw [hb]
          exact hsize
      refine Nat.le_trans hmax (Nat.le_trans ?_ (Nat.le_max_right ..))
      unfold maxSize
      unfold quarter at hL
      omega
  · intro hL
    obtain ⟨b, hrun, -⟩ := run_safe (I := RawBuffer.Sound)
      (fun b call hb htraffic => by
        obtain ⟨r, hr⟩ := step_returns hL hb htraffic
        exact ⟨r, hr, step_sound hb (htraffic.legal hL hb) hr⟩)
      RawBuffer.new_sound h
    exact ⟨b, hrun⟩

/-- Twenty bytes, eighteen of them read, and then more than the room
behind: the vector grows with its dead bytes. -/
def growingTraffic : List BufferCall :=
  [.append (fun _ => true) (List.replicate 20 7), .retrieve 18,
    .append (fun _ => true) (List.replicate 1100 7)]

theorem buffer_size_bounded_grown :
    Along BufferCall.step (BufferCall.Traffic 2 1100) .new growingTraffic
      ∧ ∃ b, run BufferCall.step .new growingTraffic = .ok b
        ∧ b.buffer.length
          ≤ max (kCheapPrepend + kInitialSize)
            (2 + 2 * 1100 + kCheapPrepend) := by
  have halong : Along BufferCall.step (BufferCall.Traffic 2 1100) .new
      growingTraffic := along_of_check (by decide +kernel)
  obtain ⟨hbound, hreturns⟩ := buffer_size_bounded 2 1100 growingTraffic halong
  obtain ⟨b, hrun⟩ := hreturns (by decide)
  exact ⟨halong, b, hrun, hbound b hrun⟩

end Cobra
