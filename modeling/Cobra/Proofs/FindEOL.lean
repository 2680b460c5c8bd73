/-
`findEOL(start)` looks at `readableBytes()` bytes from `start` on, so at
as many bytes behind the content as `start` is behind `BeginRead()`.

It is right when `start` is `BeginRead()`, or when there is a `'\n'` in
the content to stop it. In every other case it goes on into the bytes
that were left behind the content, and finds a `'\n'` that happens to be
there, or it leaves the vector.
-/
import Cobra.Proofs.VecBuffer

namespace Cobra.VecBuffer

open Machine Window RawBuffer

/-- The two differ only in the bytes behind the content. -/
structure SameBefore (b b' : RawBuffer) : Prop where
  reader : b'.readerIndex = b.readerIndex
  writer : b'.writerIndex = b.writerIndex
  size : b'.buffer.length = b.buffer.length
  before : b'.buffer.take b.writerIndex = b.buffer.take b.writerIndex

theorem SameBefore.slice {b b' : RawBuffer} (h : SameBefore b b')
    (start : Nat) : slice b'.buffer start b'.writerIndex
      = slice b.buffer start b.writerIndex := by
  unfold Window.slice
  rw [h.writer, h.before]

theorem SameBefore.firstEOL {b b' : RawBuffer} (h : SameBefore b b')
    (start : Nat) : firstEOL b' start = firstEOL b start := by
  unfold VecBuffer.firstEOL
  rw [h.slice]

/-- `findEOL` calls `memchr`. -/
theorem findEOLFrom_eq {b : RawBuffer} {start : Nat}
    (hstart : b.readerIndex ≤ start) (hend : start ≤ b.writerIndex) :
    findEOLFrom b start = memchr b start kEOL b.readableBytes := by
  unfold findEOLFrom
  rw [require_bind hstart, require_bind hend]

/-- A search that finds nothing has stayed in the vector. -/
theorem memchr_none_inv {b : RawBuffer} {start len : Nat} {c : UInt8}
    (h : memchr b start c len = .ok none) : start + len ≤ b.buffer.length := by
  unfold memchr at h
  split at h
  · cases h
  · obtain ⟨_, hin, -⟩ := bind_ok_inv h
    exact require_inv hin

/-- Where a `'\n'` is. -/
theorem findIdx_of_mem {l : List UInt8} (h : kEOL ∈ l) :
    ∃ i, l.findIdx? (· == kEOL) = some i := by
  apply Option.isSome_iff_exists.mp
  rw [List.findIdx?_isSome]
  exact List.any_eq_true.mpr ⟨kEOL, h, beq_self_eq_true _⟩

theorem findIdx_of_not_mem {l : List UInt8} (h : kEOL ∉ l) :
    l.findIdx? (· == kEOL) = none := by
  rw [List.findIdx?_eq_none_iff]
  intro x hx
  apply beq_eq_false_iff_ne.mpr
  rintro rfl
  exact h hx

section Sound

variable {b : Buffer} (hb : b.buffer.length ≤ maxSize) {start : Nat}
  (hstart : b.readerIndex ≤ start) (hend : start ≤ b.writerIndex)
include hb hstart hend

/-- How far `memchr` looks: as far behind the content as `start` is
behind `BeginRead()`. -/
theorem scan_end : start + b.raw.readableBytes
    = b.writerIndex + (start - b.readerIndex) := by
  rw [readableBytes_raw hb]
  unfold Buffer.readableBytes
  omega

/-- The bytes that `memchr` looks at: the content from `start` on, and
what comes behind it. -/
theorem scanned_eq :
    slice b.buffer start (start + b.raw.readableBytes)
      = slice b.buffer start b.writerIndex
        ++ slice b.buffer b.writerIndex (start + b.raw.readableBytes) := by
  rw [scan_end hb hstart hend]
  exact (slice_append hend (Nat.le_add_right ..)).symm

/-- A `'\n'` in the content stops the search. -/
theorem findEOLFrom_of_mem (h : kEOL ∈ slice b.buffer start b.writerIndex) :
    findEOLFrom b.raw start = .ok (firstEOL b.raw start) := by
  obtain ⟨i, hi⟩ := findIdx_of_mem h
  have hfirst : firstEOL b.raw start = some (start + i) := by
    unfold firstEOL
    exact congrArg (Option.map (start + ·)) hi
  have hscan : (slice b.raw.buffer start
      (start + b.raw.readableBytes)).findIdx? (· == kEOL) = some i := by
    show (slice b.buffer start _).findIdx? _ = _
    rw [scanned_eq hb hstart hend, List.findIdx?_append, hi]
    rfl
  rw [findEOLFrom_eq hstart hend, hfirst]
  unfold memchr
  rw [hscan]

/-- The search from `BeginRead()` ends with the content. -/
theorem findEOLFrom_begin (h : start = b.readerIndex) :
    findEOLFrom b.raw start = .ok (firstEOL b.raw start) := by
  by_cases hmem : kEOL ∈ slice b.buffer start b.writerIndex
  · exact findEOLFrom_of_mem hb hstart hend hmem
  · have hlast : start + b.raw.readableBytes = b.writerIndex := by
      rw [scan_end hb hstart hend, h, Nat.sub_self, Nat.add_zero]
    have hnone := findIdx_of_not_mem hmem
    have hfirst : firstEOL b.raw start = none := by
      unfold firstEOL
      exact congrArg (Option.map (start + ·)) hnone
    have hscan : (slice b.raw.buffer start
        (start + b.raw.readableBytes)).findIdx? (· == kEOL) = none := by
      rw [hlast]
      exact hnone
    rw [findEOLFrom_eq hstart hend, hfirst]
    unfold memchr
    rw [hscan, hlast]
    exact require_bind b.writer_le _

theorem findEOLFrom_right
    (h : start = b.readerIndex ∨ kEOL ∈ slice b.buffer start b.writerIndex) :
    findEOLFrom b.raw start = .ok (firstEOL b.raw start) :=
  h.elim (findEOLFrom_begin hb hstart hend)
    (findEOLFrom_of_mem hb hstart hend)

/-- Without a `'\n'` in the content, a later search finds one that is
right behind the content. -/
theorem findEOLFrom_stale {r : RawBuffer} (hlater : start ≠ b.readerIndex)
    (hmem : kEOL ∉ slice b.buffer start b.writerIndex)
    (hr : r = { b.raw with buffer := overlay b.buffer b.writerIndex [kEOL] }) :
    findEOLFrom r start = .ok (some b.writerIndex) := by
  have hlast := scan_end hb hstart hend
  have hbehind : slice r.buffer start b.writerIndex
      = slice b.buffer start b.writerIndex := by
    rw [hr]
    exact slice_overlay_behind (Nat.le_refl _) b.writer_le
  have hone : slice r.buffer b.writerIndex (b.writerIndex + 1) = [kEOL] := by
    rw [hr]
    exact slice_overlay_self b.writer_le
  have hscan : slice r.buffer start (start + b.raw.readableBytes)
      = slice b.buffer start b.writerIndex
        ++ (kEOL :: slice r.buffer (b.writerIndex + 1)
            (start + b.raw.readableBytes)) := by
    rw [← slice_append hend (by omega), hbehind,
      ← slice_append (Nat.le_add_right b.writerIndex 1) (by omega), hone]
    rfl
  have hfound : (slice r.buffer start
      (start + b.raw.readableBytes)).findIdx? (· == kEOL)
        = some (b.writerIndex - start) := by
    rw [hscan, List.findIdx?_append, findIdx_of_not_mem hmem,
      List.findIdx?_cons, if_pos (beq_self_eq_true _),
      length_slice b.writer_le]
    simp only [Option.map_some, Option.none_or, Nat.zero_add]
  have hread : r.readableBytes = b.raw.readableBytes := by
    rw [hr]
    rfl
  rw [findEOLFrom_eq (by rw [hr]; exact hstart) (by rw [hr]; exact hend), hread]
  unfold memchr
  rw [hfound]
  simp only [Nat.add_sub_cancel' hend]

end Sound

/-- `findEOL(start)` is right, `findEOL()` is `findEOL(BeginRead())` and
the bytes behind the content do not matter, exactly when `start` is
`BeginRead()` or a `'\n'` follows it in the content. -/
theorem findEOL_correct_iff {b : RawBuffer} (hb : Reachable b) {start : Nat}
    (hstart : b.readerIndex ≤ start) (hend : start ≤ b.writerIndex) :
    (findEOLFrom b start = .ok (firstEOL b start)
        ∧ findEOL b = findEOLFrom b b.readerIndex
        ∧ ∀ b', Reachable b' → SameBefore b b' →
            findEOLFrom b' start = findEOLFrom b start)
      ↔ start = b.readerIndex ∨ kEOL ∈ slice b.buffer start b.writerIndex := by
  obtain ⟨b, rfl, hsize, hw⟩ := hb.sound
  constructor
  · rintro ⟨hfirst, -, hsame⟩
    by_contra hno
    obtain ⟨hlater, hmem⟩ := not_or.mp hno
    have hnone : firstEOL b.raw start = none :=
      congrArg (Option.map (start + ·)) (findIdx_of_not_mem hmem)
    rw [hnone] at hfirst
    -- there is a byte behind the content that the search looks at
    have hroom : [kEOL].length ≤ b.writableBytes := by
      have hscan := hfirst
      rw [findEOLFrom_eq hstart hend] at hscan
      have hin := memchr_none_inv hscan
      rw [scan_end hsize hstart hend] at hin
      have hstart : b.readerIndex ≤ start := hstart
      have hlater : start ≠ b.readerIndex := hlater
      show 1 ≤ b.buffer.length - b.writerIndex
      change _ ≤ b.buffer.length at hin
      omega
    obtain ⟨r, hfill, hr, hkeeps⟩ := fill_keeps hsize hw hroom
    have hreach : Reachable r := by
      have hlegal : BufferCall.Legal b.raw (.fill [kEOL]) := by
        show _ ≤ b.raw.writableBytes
        rw [writableBytes_raw hsize]
        exact hroom
      exact hb.step hlegal hfill
    have hbefore : SameBefore b.raw r := by
      rw [hr]
      refine ⟨rfl, rfl, length_overlay ?_, List.take_left' ?_⟩
      · have hlast := b.writer_le
        unfold Buffer.writableBytes at hroom
        omega
      · rw [List.length_take]
        exact Nat.min_eq_left b.writer_le
    have hstale := hsame r hreach hbefore
    rw [hfirst, findEOLFrom_stale hsize hstart hend hlater hmem hr] at hstale
    cases hstale
  · intro hcond
    have hright := findEOLFrom_right hsize hstart hend hcond
    refine ⟨hright, ?_, fun b' hb' hbefore => ?_⟩
    · exact (findEOLFrom_eq (Nat.le_refl _) b.reader_le).symm
    · obtain ⟨b', rfl, hsize', -⟩ := hb'.sound
      have hcond' : start = b'.raw.readerIndex
          ∨ kEOL ∈ slice b'.raw.buffer start b'.raw.writerIndex := by
        rw [hbefore.slice, hbefore.reader]
        exact hcond
      have hright' := findEOLFrom_right hsize'
        (Nat.le_trans (Nat.le_of_eq hbefore.reader) hstart)
        (Nat.le_trans hend (Nat.le_of_eq hbefore.writer.symm)) hcond'
      rw [hright, hright', hbefore.firstEOL]

/-- `ab`, a line, then `c`. -/
def twoLines : List BufferCall :=
  [.append (fun _ => true) [97, 98, 10, 99]]

theorem findEOL_correct_iff_line :
    ∃ b, Reachable b ∧ b.content = [97, 98, 10, 99]
      ∧ findEOLFrom b 9 = .ok (firstEOL b 9) := by
  obtain ⟨b, hrun, hb⟩ := map_ok_inv
    (g := fun b : RawBuffer => (b.content, b.readerIndex, b.writerIndex,
      slice b.buffer 9 b.writerIndex))
    (c := ([97, 98, 10, 99], 8, 12, [98, 10, 99]))
    (show (run BufferCall.step .new twoLines).map _ = .ok _ by decide +kernel)
  simp only [Prod.mk.injEq] at hb
  obtain ⟨hcontent, hreader, hwriter, hslice⟩ := hb
  have hreach : Reachable b :=
    ⟨twoLines, along_of_check (by decide +kernel), hrun⟩
  have hmem : kEOL ∈ slice b.buffer 9 b.writerIndex := by
    rw [hslice]
    decide
  have hstart : b.readerIndex ≤ 9 := by
    rw [hreader]
    decide
  have hend : 9 ≤ b.writerIndex := by
    rw [hwriter]
    decide
  have hright := (findEOL_correct_iff hreach hstart hend).mpr (.inr hmem)
  exact ⟨b, hreach, hcontent, hright.1⟩

/-- The two lines are read and a short message without a `'\n'` comes: the
old `'\n'` is still behind it. -/
def leftOver : List BufferCall :=
  [.append (fun _ => true) [97, 98, 10, 99], .retrieveAll,
    .append (fun _ => true) [100, 101]]

/-- The search from the second byte of the content finds a `'\n'` that is
not in the content. -/
theorem findEOL_finds_stale_line :
    ∃ b, Reachable b ∧ b.content = [100, 101]
      ∧ b.readerIndex ≤ 9 ∧ 9 ≤ b.writerIndex
      ∧ firstEOL b 9 = none ∧ findEOLFrom b 9 = .ok (some b.writerIndex) := by
  obtain ⟨b, hrun, hb⟩ := map_ok_inv
    (g := fun b : RawBuffer => ((b.content, b.readerIndex, b.writerIndex),
      (findEOLFrom b 9).map fun eol => (eol, firstEOL b 9)))
    (c := (([100, 101], 8, 10), .ok (some 10, none)))
    (show (run BufferCall.step .new leftOver).map _ = .ok _ by decide +kernel)
  obtain ⟨hindices, hfind⟩ := Prod.mk.inj hb
  simp only [Prod.mk.injEq] at hindices
  obtain ⟨hcontent, hreader, hwriter⟩ := hindices
  obtain ⟨eol, hfound, heol⟩ := map_ok_inv hfind
  obtain ⟨rfl, hfirst⟩ := Prod.mk.inj heol
  refine ⟨b, ⟨leftOver, along_of_check (by decide +kernel), hrun⟩, hcontent,
    ?_, ?_, hfirst, ?_⟩
  · rw [hreader]
    decide
  · rw [hwriter]
    decide
  · rw [hfound, hwriter]

end Cobra.VecBuffer
