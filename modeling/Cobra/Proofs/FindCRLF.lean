/-
`findCRLF` finds the first end of a line, and may go on where it stopped
when the content grows.

# Why the search may go on

An end of a line that an `append` completes has its `'\n'` among the new
bytes, so it is the last of the old bytes or one of the new ones. Starting
one byte in front of the new ones misses nothing
(`Search.search_append_none`). `append` may move the content to another
place of the vector; what is kept is the offset from `BeginRead()`, for
the search looks at the content alone (`findCRLF_eq`).
-/
import Cobra.FindCRLF
import Cobra.Proofs.BufferBound

namespace Cobra.VecBuffer

open Machine Window RawBuffer

-- ======================================================= ends of lines

theorem pair_prefix {x y : UInt8} {l : List UInt8} :
    [x, y] <+: l ↔ l[0]? = some x ∧ l[1]? = some y := by
  constructor
  · rintro ⟨rest, rfl⟩
    exact ⟨rfl, rfl⟩
  · intro h
    match l, h with
    | a :: a' :: rest, h =>
        simp only [List.getElem?_cons_zero, List.getElem?_cons_succ,
          Option.some.injEq] at h
        exact ⟨rest, by rw [h.1, h.2]; rfl⟩

section Sound

variable {b : RawBuffer} (hlast : b.writerIndex ≤ b.buffer.length)
include hlast

/-- The places that the search looks for are the ends of lines. -/
theorem at_slice_iff {start i : Nat} (hstart : start ≤ b.writerIndex) :
    Search.At kCRLF (slice b.buffer start b.writerIndex) i
      ↔ EndsLine b (start + i) := by
  have hlen : (slice b.buffer start b.writerIndex).length
      = b.writerIndex - start := length_slice hlast
  constructor
  · intro h
    have hend : i + 2 ≤ (slice b.buffer start b.writerIndex).length := h.add_le
    obtain ⟨-, hpat⟩ := h
    rw [← slice_add] at hpat
    obtain ⟨h0, h1⟩ := pair_prefix.1 hpat
    rw [getElem?_slice (by omega)] at h0 h1
    exact ⟨by omega, h0, h1⟩
  · rintro ⟨hend, h0, h1⟩
    refine ⟨by omega, ?_⟩
    rw [← slice_add]
    refine pair_prefix.2 ⟨?_, ?_⟩
    · rw [getElem?_slice (by omega)]
      exact h0
    · rw [getElem?_slice (by omega)]
      exact h1

/-- What the two functions return, by the search in the content. -/
theorem stdSearch_eq {start : Nat} (hstart : start ≤ b.writerIndex) :
    (do
      let crlf ← stdSearch b start b.writerIndex kCRLF
      .ok (if crlf = b.writerIndex then none else some crlf)
      : Except FindFault (Option Nat))
      = .ok ((Search.search kCRLF (slice b.buffer start b.writerIndex)).map
          (start + ·)) := by
  unfold stdSearch
  rw [require_bind ⟨hstart, hlast⟩]
  cases hs : Search.search kCRLF (slice b.buffer start b.writerIndex) with
  | none =>
      rw [ok_bind, if_pos rfl]
      rfl
  | some i =>
      have hends := ((at_slice_iff hlast hstart).1 (Search.search_some hs).1).1
      rw [ok_bind, if_neg (by omega)]
      rfl

theorem findCRLFFrom_eq {start : Nat} (hfirst : b.readerIndex ≤ start)
    (hstart : start ≤ b.writerIndex) :
    findCRLFFrom b start
      = .ok ((Search.search kCRLF (slice b.buffer start b.writerIndex)).map
          (start + ·)) := by
  unfold findCRLFFrom
  rw [require_bind hfirst, require_bind hstart]
  exact stdSearch_eq hlast hstart

/-- `findCRLF()` is `findCRLF(BeginRead())`, and a search of the content. -/
theorem findCRLF_eq (horder : b.readerIndex ≤ b.writerIndex) :
    findCRLF b
      = .ok ((Search.search kCRLF b.content).map (b.readerIndex + ·)) :=
  stdSearch_eq hlast horder

/-- The search finds the first end of a line from `start` on. -/
theorem firstLine_search {start : Nat} (hstart : start ≤ b.writerIndex) :
    FirstLine b start
      ((Search.search kCRLF (slice b.buffer start b.writerIndex)).map
        (start + ·)) := by
  cases hs : Search.search kCRLF (slice b.buffer start b.writerIndex) with
  | none =>
      intro q hq hends
      apply Search.search_none hs (q - start)
      rw [at_slice_iff hlast hstart, Nat.add_sub_cancel' hq]
      exact hends
  | some i =>
      obtain ⟨hat, hleast⟩ := Search.search_some hs
      refine ⟨Nat.le_add_right .., (at_slice_iff hlast hstart).1 hat, ?_⟩
      intro q hq hlt hends
      have hlt' : q < start + i := hlt
      apply hleast (q - start) (by omega)
      rw [at_slice_iff hlast hstart, Nat.add_sub_cancel' hq]
      exact hends

end Sound

-- ================================================ the content that grows

/-- An `append` that returns has added its bytes to the content, however
many they are. -/
theorem append_content {b b' : RawBuffer} {alloc : Nat → Bool}
    {d : List UInt8} (hb : b.Sound) (h : append alloc b d = .ok b') :
    b'.Sound ∧ b'.content = b.content ++ d := by
  have hresized := BufferCall.append_resized h
  obtain ⟨b, rfl, hsize, hw⟩ := hb
  -- the bytes are in a vector
  have hroom : d.length ≤ b'.buffer.length := by
    obtain ⟨r, -, hrest⟩ := bind_ok_inv h
    obtain ⟨_, -, hwrite⟩ := bind_ok_inv hrest
    rw [List.take_length] at hwrite
    obtain ⟨r', hcopy, hok⟩ := bind_ok_inv (mapError_ok_inv hwrite)
    have hsame := BufferCall.copy_length hcopy
    obtain ⟨_, hreq, -⟩ := bind_ok_inv hcopy
    have hfits := require_inv hreq
    cases hok
    show d.length ≤ r'.buffer.length
    omega
  have hmax : b'.buffer.length ≤ maxSize := by
    obtain hsame | ⟨-, -, -, hle⟩ := hresized
    · rw [hsame]
      exact hsize
    · exact Nat.le_trans hle (Nat.max_le.2 ⟨hsize, Nat.le_refl _⟩)
  have hlt : d.length < sizeMod := lt_sizeMod (Nat.le_trans hroom hmax)
  obtain ⟨-, hkeeps⟩ := appendFrom_inv hsize hw hlt h
  rw [List.take_length] at hkeeps
  exact ⟨hkeeps.sound, hkeeps.content⟩

theorem length_content {b : RawBuffer} (hb : b.Sound) :
    b.content.length = b.writerIndex - b.readerIndex := length_slice hb.ordered.2

/-- The search from an offset of the content on. -/
theorem findCRLFFrom_offset {b : RawBuffer} (hb : b.Sound) {n : Nat}
    (hn : n ≤ b.content.length) :
    findCRLFFrom b (b.readerIndex + n)
      = .ok ((Search.search kCRLF (b.content.drop n)).map
          (b.readerIndex + n + ·)) := by
  obtain ⟨horder, hlast⟩ := hb.ordered
  rw [length_content hb] at hn
  rw [findCRLFFrom_eq hlast (Nat.le_add_right ..) (by omega), slice_add]
  rfl

/-- `findCRLF` is exact, and a search that found nothing may go on one byte
in front of the bytes that are added; an end of a line that was found is
found at the same offset. -/
theorem findCRLF_exact_incremental (b : RawBuffer) (hb : Reachable b) :
    (∀ start, b.readerIndex ≤ start → start ≤ b.writerIndex →
        ∃ crlf, findCRLFFrom b start = .ok crlf ∧ FirstLine b start crlf)
      ∧ findCRLF b = findCRLFFrom b b.readerIndex
      ∧ ∀ alloc d b', append alloc b d = .ok b' →
        b'.content = b.content ++ d
          ∧ (findCRLF b = .ok none →
            findCRLF b'
              = findCRLFFrom b' (b'.readerIndex + (b.content.length - 1)))
          ∧ ∀ k, findCRLF b = .ok (some (b.readerIndex + k)) →
            findCRLF b' = .ok (some (b'.readerIndex + k)) := by
  have hsound := hb.sound
  obtain ⟨horder, hlast⟩ := hsound.ordered
  have hfind := findCRLF_eq hlast horder
  refine ⟨fun start hfirst hend => ?_, ?_, fun alloc d b' happend => ?_⟩
  · exact ⟨_, findCRLFFrom_eq hlast hfirst hend, firstLine_search hlast hend⟩
  · rw [hfind, findCRLFFrom_eq hlast (Nat.le_refl _) horder]
    rfl
  · obtain ⟨hsound', hcontent⟩ := append_content hsound happend
    obtain ⟨horder', hlast'⟩ := hsound'.ordered
    have hfind' := findCRLF_eq hlast' horder'
    refine ⟨hcontent, fun hnone => ?_, fun k hsome => ?_⟩
    · rw [hfind] at hnone
      have hsearch := Option.map_eq_none_iff.1 (Except.ok.inj hnone)
      have hn : b.content.length - 1 ≤ b'.content.length := by
        rw [hcontent, List.length_append]
        omega
      rw [hfind', findCRLFFrom_offset hsound' hn, hcontent,
        Search.search_append_none d hsearch, Option.map_map]
      congr 2
      funext i
      exact (Nat.add_assoc ..).symm
    · rw [hfind] at hsome
      obtain ⟨i, hi, heq⟩ := Option.map_eq_some_iff.1 (Except.ok.inj hsome)
      have hk : i = k := Nat.add_left_cancel heq
      rw [hfind', hcontent, Search.search_append_some d hi, hk]
      rfl

/-- `a` and a lone `'\r'`, the last byte that was read so far. -/
def loneCR : List BufferCall := [.append (fun _ => true) [97, 13]]

theorem findCRLF_exact_incremental_split :
    ∃ b, Reachable b ∧ b.content = [97, 13] ∧ findCRLF b = .ok none
      ∧ ∀ alloc b', append alloc b [10, 98] = .ok b' →
        findCRLF b' = findCRLFFrom b' (b'.readerIndex + 1) := by
  obtain ⟨b, hrun, hb⟩ := map_ok_inv
    (g := fun b : RawBuffer => (b.content, findCRLF b))
    (c := ([97, 13], .ok none))
    (show (run BufferCall.step .new loneCR).map _ = .ok _ by decide +kernel)
  obtain ⟨hcontent, hnone⟩ := Prod.mk.inj hb
  have hreach : Reachable b :=
    ⟨loneCR, along_of_check (by decide +kernel), hrun⟩
  refine ⟨b, hreach, hcontent, hnone, fun alloc b' happend => ?_⟩
  have hgrown := (findCRLF_exact_incremental b hreach).2.2 alloc _ b' happend
  have hagain := hgrown.2.1 hnone
  rw [hcontent] at hagain
  exact hagain

end Cobra.VecBuffer
