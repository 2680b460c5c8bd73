/-
`Buffer::findCRLF` (cobra/buffer.h): the search for the end of a line in
the content.

A pointer into the vector is its offset from `begin()`, as in
Cobra.VecBuffer. `std::search` returns the end of its range when there is
nothing to be found, and the two functions make that `NULL`.
-/
import Cobra.Lib.Search
import Cobra.VecBuffer

namespace Cobra

open Machine Window

namespace VecBuffer

/-- `const char Buffer::kCRLF[]`, without its zero. -/
def kCRLF : List UInt8 := [13, 10]

/-- `std::search(first, last, pat, pat + n)` between two pointers into the
vector. -/
def stdSearch (b : RawBuffer) (first last : Nat) (pat : List UInt8) :
    Except FindFault Nat := do
  require (first ≤ last ∧ last ≤ b.buffer.length) .outOfBounds
  match Search.search pat (slice b.buffer first last) with
  | some i => .ok (first + i)
  | none => .ok last

/-- `findCRLF()`. -/
def findCRLF (b : RawBuffer) : Except FindFault (Option Nat) := do
  let crlf ← stdSearch b b.readerIndex b.writerIndex kCRLF
  .ok (if crlf = b.writerIndex then none else some crlf)

/-- `findCRLF(const char* start)`. -/
def findCRLFFrom (b : RawBuffer) (start : Nat) :
    Except FindFault (Option Nat) := do
  require (b.readerIndex ≤ start) .startBegin
  require (start ≤ b.writerIndex) .startEnd
  let crlf ← stdSearch b start b.writerIndex kCRLF
  .ok (if crlf = b.writerIndex then none else some crlf)

/-- A line ends at `p`: the two bytes are there, and they belong to the
content. -/
def EndsLine (b : RawBuffer) (p : Nat) : Prop :=
  p + 2 ≤ b.writerIndex ∧ b.buffer[p]? = some 13 ∧ b.buffer[p + 1]? = some 10

instance (b : RawBuffer) (p : Nat) : Decidable (EndsLine b p) :=
  inferInstanceAs (Decidable (_ ∧ _))

/-- The first line that ends at `start` or behind it. -/
def FirstLine (b : RawBuffer) (start : Nat) : Option Nat → Prop
  | some p => start ≤ p ∧ EndsLine b p ∧ ∀ q, start ≤ q → q < p → ¬ EndsLine b q
  | none => ∀ q, start ≤ q → ¬ EndsLine b q

end VecBuffer

end Cobra
