/-
The integers of a `Buffer` come back as they were put in.

# Three steps

What `appendInt` and `prependInt` hand to `append` and `prepend` are the
bytes of the value in the network's order, whatever the order of the
machine (`appendInt_eq`, `prependInt_eq`). A run of such calls therefore
leaves the prepended values, the last one first, then the old content,
then the appended values (`run_puts`). And a read takes the bytes of one
value off the front and gives the value (`readInt_ok`), so a sequence of
reads takes the values one by one (`readInts_ok`).
-/
import Cobra.BufferInts
import Cobra.Proofs.VecBuffer

namespace Cobra.BufferInts

open Machine Bytes RawBuffer VecBuffer Window

variable (host : ByteOrder)

-- ============================================================ the bytes

theorem length_bytes (v : NetInt) : v.bytes.length = v.width := length_toBE ..

/-- The room in front holds any value. -/
theorem width_le (v : NetInt) : v.width ≤ kCheapPrepend := by
  unfold NetInt.width
  cases v.type <;> decide

theorem memory32_eq (x : Int32) :
    memory32 host x = (NetInt.int32 x).bytes := by
  have hlt : host.toNetwork 4 x.toUInt32.toNat < 2 ^ 32 :=
    host.toNetwork_lt (k := 4) x.toUInt32.toNat_lt
  show host.store 4 (UInt32.ofNat (host.toNetwork 4 _)).toNat = _
  rw [UInt32.toNat_ofNat', Nat.mod_eq_of_lt hlt, ByteOrder.store_toNetwork]
  rfl

theorem memory16_eq (x : Int16) :
    memory16 host x = (NetInt.int16 x).bytes := by
  have hlt : host.toNetwork 2 x.toUInt16.toNat < 2 ^ 16 :=
    host.toNetwork_lt (k := 2) x.toUInt16.toNat_lt
  show host.store 2 (UInt16.ofNat (host.toNetwork 2 _)).toNat = _
  rw [UInt16.toNat_ofNat', Nat.mod_eq_of_lt hlt, ByteOrder.store_toNetwork]
  rfl

theorem memory8_eq (x : Int8) : memory8 x = (NetInt.int8 x).bytes := by
  show [x.toUInt8] = [UInt8.ofNat (x.toUInt8.toNat / 1)]
  rw [Nat.div_one, UInt8.ofNat_toNat]

/-- What was in the network's order is the value again. -/
theorem loaded32_eq (x : Int32) :
    (networkToHost32 host
      (UInt32.ofNat (host.load (toBE 4 x.toUInt32.toNat)))).toInt32 = x := by
  have hlt := host.load_lt (toBE 4 x.toUInt32.toNat)
  rw [length_toBE, show 256 ^ 4 = 2 ^ 32 by decide] at hlt
  have hback := host.ofNetwork_load (k := 4) x.toUInt32.toNat_lt
  unfold networkToHost32
  rw [UInt32.toNat_ofNat', Nat.mod_eq_of_lt hlt, hback, UInt32.ofNat_toNat,
    Int32.toInt32_toUInt32]

theorem loaded16_eq (x : Int16) :
    (networkToHost16 host
      (UInt16.ofNat (host.load (toBE 2 x.toUInt16.toNat)))).toInt16 = x := by
  have hlt := host.load_lt (toBE 2 x.toUInt16.toNat)
  rw [length_toBE, show 256 ^ 2 = 2 ^ 16 by decide] at hlt
  have hback := host.ofNetwork_load (k := 2) x.toUInt16.toNat_lt
  unfold networkToHost16
  rw [UInt16.toNat_ofNat', Nat.mod_eq_of_lt hlt, hback, UInt16.ofNat_toNat,
    Int16.toInt16_toUInt16]

/-- A value is appended in the network's order. -/
theorem appendInt_eq (alloc : Nat → Bool) (b : RawBuffer) (v : NetInt) :
    appendInt host alloc b v = VecBuffer.append alloc b v.bytes := by
  cases v with
  | int8 x => exact congrArg (VecBuffer.append alloc b) (memory8_eq x)
  | int16 x => exact congrArg (VecBuffer.append alloc b) (memory16_eq host x)
  | int32 x => exact congrArg (VecBuffer.append alloc b) (memory32_eq host x)

/-- A value is prepended in the network's order. -/
theorem prependInt_eq (b : RawBuffer) (v : NetInt) :
    prependInt host b v = b.prepend v.bytes := by
  cases v with
  | int8 x => exact congrArg b.prepend (memory8_eq x)
  | int16 x => exact congrArg b.prepend (memory16_eq host x)
  | int32 x => exact congrArg b.prepend (memory32_eq host x)

-- =========================================================== the writes

/-- What a put leaves of the content `c`. -/
def put (c : List UInt8) : PutInt → List UInt8
  | .append _ v => c ++ v.bytes
  | .prepend v => v.bytes ++ c

theorem step_ok {b : RawBuffer} {p : PutInt} (hb : b.Sound)
    (hfits : Fits b p) :
    Holds (step host b p) fun r => r.Sound ∧ r.content = put b.content p := by
  obtain ⟨b, rfl, hsize, hw⟩ := hb
  cases p with
  | append alloc v =>
      have hfit : b.writerIndex + v.bytes.length < sizeMod := by
        have hlast := b.writer_le
        have hcheap := cheap_lt_sizeMod hsize
        have hwidth := width_le v
        rw [length_bytes]
        omega
      have hends := appendFrom_ends hsize hw alloc
        (Nat.le_refl v.bytes.length) hfit
      rw [length_bytes, ← length_bytes, List.take_length] at hends
      have hput := hends.holds fun _ hno =>
        hfits (length_bytes v ▸ hno.2)
      show Holds (appendInt host alloc b.raw v) _
      rw [appendInt_eq]
      exact holds_mono hput fun r hr => ⟨hr.sound, hr.content⟩
  | prepend v =>
      have hlen : v.bytes.length ≤ b.prependableBytes := by
        rw [length_bytes]
        exact hfits
      show Holds ((prependInt host b.raw v).mapError VecFault.fault) _
      rw [prependInt_eq]
      obtain ⟨r, hr, b', hraw, hcontent, hsize'⟩ := prepend_shows hsize hlen
      refine holds_mapError ⟨r, hr, ⟨b', hraw, hsize', ?_⟩, ?_⟩
      · have hwriter := prepend_writerIndex hr
        rw [hraw] at hwriter
        exact Nat.le_trans hw (Nat.le_of_eq hwriter.symm)
      · rw [hraw]
        exact hcontent

/-- A run of puts leaves the prepended values, the last one first, the
old content and the appended values. -/
theorem run_puts {puts : List PutInt} : ∀ {b : RawBuffer}, b.Sound →
    Along (step host) Fits b puts →
      Holds (run (step host) b puts) fun r => r.Sound ∧ r.content
        = (prepended puts).reverse.flatMap NetInt.bytes
          ++ (b.content ++ (appended puts).flatMap NetInt.bytes) := by
  induction puts with
  | nil =>
      intro b hb _
      refine holds_ok ⟨hb, ?_⟩
      simp only [prepended, appended, List.reverse_nil, List.flatMap_nil,
        List.nil_append, List.append_nil]
  | cons p puts ih =>
      intro b hb halong
      obtain ⟨b', hstep, hb', hput⟩ := step_ok host hb halong.1
      rw [run_cons_ok puts hstep]
      apply holds_mono (ih hb' (halong.2 b' hstep))
      rintro r ⟨hr, hcontent⟩
      refine ⟨hr, ?_⟩
      rw [hcontent, hput]
      cases p with
      | append alloc v =>
          simp only [put, prepended, appended, List.flatMap_cons,
            List.append_assoc]
      | prepend v =>
          simp only [put, prepended, appended, List.reverse_cons,
            List.flatMap_append, List.flatMap_cons, List.flatMap_nil,
            List.append_nil, List.append_assoc]

-- ============================================================ the reads

section Reads

variable {b : Buffer} (hb : b.buffer.length ≤ maxSize)
include hb

/-- What `memcpy` gets. -/
theorem copyOut_ok {k : Nat} (h : k ≤ b.readableBytes) :
    copyOut b.raw k = .ok (b.content.take k) := by
  obtain ⟨hlast, hlt⟩ := pointer_le hb h
  have hplus : plus b.raw.readerIndex k = b.readerIndex + k := plus_of_lt hlt
  have hread : k ≤ b.raw.readableBytes := by
    rw [readableBytes_raw hb]
    exact h
  have hin : b.raw.readerIndex ≤ b.readerIndex + k
      ∧ b.readerIndex + k ≤ b.raw.buffer.length :=
    ⟨Nat.le_add_right .., Nat.le_trans hlast b.writer_le⟩
  unfold copyOut bytes
  rw [require_bind hread, hplus, require_bind hin]
  exact congrArg Except.ok (slice_take hlast)

/-- A value at the front of the content is peeked. -/
theorem peekInt_ok {v : NetInt} {rest : List UInt8}
    (hcontent : b.content = v.bytes ++ rest) :
    peekInt host b.raw v.type = .ok v := by
  have hlen : v.width ≤ b.readableBytes := by
    rw [← Buffer.length_content, hcontent, List.length_append, length_bytes]
    exact Nat.le_add_right ..
  have hmem : copyOut b.raw v.width = .ok v.bytes := by
    rw [copyOut_ok hb hlen, hcontent]
    exact congrArg Except.ok (List.take_left' (length_bytes v))
  cases v with
  | int8 x =>
      have hmem : copyOut b.raw 1 = .ok [x.toUInt8] := by
        rw [show [x.toUInt8] = memory8 x from rfl, memory8_eq]
        exact hmem
      unfold peekInt peekInt8
      rw [hmem]
      rfl
  | int16 x =>
      have hmem : copyOut b.raw 2 = .ok (toBE 2 x.toUInt16.toNat) := hmem
      show (peekInt16 host b.raw).map NetInt.int16 = _
      unfold peekInt16
      rw [hmem]
      exact congrArg (fun x => Except.ok (NetInt.int16 x)) (loaded16_eq host x)
  | int32 x =>
      have hmem : copyOut b.raw 4 = .ok (toBE 4 x.toUInt32.toNat) := hmem
      show (peekInt32 host b.raw).map NetInt.int32 = _
      unfold peekInt32
      rw [hmem]
      exact congrArg (fun x => Except.ok (NetInt.int32 x)) (loaded32_eq host x)

omit hb in
/-- A read is a peek and a retrieve. -/
theorem readInt_eq (r : RawBuffer) (t : IntType) :
    readInt host r t = (do
      let v ← peekInt host r t
      let r ← retrieveInt r t
      .ok (v, r)) := by
  cases t with
  | int8 =>
      unfold readInt readInt8 peekInt
      cases peekInt8 r with
      | error f => rfl
      | ok x => cases retrieveInt r .int8 <;> rfl
  | int16 =>
      unfold readInt readInt16 peekInt
      cases peekInt16 host r with
      | error f => rfl
      | ok x => cases retrieveInt r .int16 <;> rfl
  | int32 =>
      unfold readInt readInt32 peekInt
      cases peekInt32 host r with
      | error f => rfl
      | ok x => cases retrieveInt r .int32 <;> rfl

/-- A read takes the bytes of a value off the front. -/
theorem readInt_ok {v : NetInt} {rest : List UInt8}
    (hcontent : b.content = v.bytes ++ rest) :
    Holds (readInt host b.raw v.type) fun r => r.1 = v ∧ Leaves b rest r.2 := by
  have hlen : v.width ≤ b.readableBytes := by
    rw [← Buffer.length_content, hcontent, List.length_append, length_bytes]
    exact Nat.le_add_right ..
  have hdrop : b.content.drop v.width = rest := by
    rw [hcontent]
    exact List.drop_left' (length_bytes v)
  rw [readInt_eq, peekInt_ok host hb hcontent, ok_bind]
  refine holds_bind (holds_mapError (retrieve_leaves hb hlen)) fun r hr => ?_
  exact holds_ok ⟨rfl, hdrop ▸ hr⟩

end Reads

/-- A sequence of reads takes the values one by one. -/
theorem readInts_ok {vs : List NetInt} {rest : List UInt8} :
    ∀ {b : Buffer}, b.buffer.length ≤ maxSize →
      b.content = vs.flatMap NetInt.bytes ++ rest →
      Holds (readInts host (vs.map NetInt.type) b.raw) fun r =>
        r.1 = vs ∧ Shows r.2 rest true := by
  induction vs with
  | nil =>
      intro b hb hcontent
      exact holds_ok ⟨rfl, b, rfl, hcontent, hb, nofun⟩
  | cons v vs ih =>
      intro b hb hcontent
      rw [List.flatMap_cons, List.append_assoc] at hcontent
      rw [List.map_cons, readInts]
      apply holds_bind (readInt_ok host hb hcontent)
      rintro ⟨v', r⟩ ⟨rfl, b', rfl, hcontent', hb', -⟩
      apply holds_bind (ih hb' hcontent')
      rintro ⟨vs', r⟩ ⟨rfl, hshows⟩
      exact holds_ok ⟨rfl, hshows⟩

/-- Integers put at both ends of a buffer, in any order, lie there in the
network's order and come back as they were: the prepended ones with the
last one first and then, behind the old content, the appended ones. A
peek and a retrieve are a read. -/
theorem ints_round_trip {b : RawBuffer} (hb : Reachable b)
    {puts : List PutInt} (hputs : Along (step host) Fits b puts) :
    (∃ b₁ b₂ b₃ b₄, run (step host) b puts = .ok b₁
      ∧ b₁.content = (prepended puts).reverse.flatMap NetInt.bytes
          ++ (b.content ++ (appended puts).flatMap NetInt.bytes)
      ∧ readInts host ((prepended puts).reverse.map NetInt.type) b₁
          = .ok ((prepended puts).reverse, b₂)
      ∧ b₂.retrieve b.content.length = .ok b₃
      ∧ readInts host ((appended puts).map NetInt.type) b₃
          = .ok (appended puts, b₄)
      ∧ b₄.content = [])
    ∧ ∀ r t, readInt host r t = (do
        let v ← peekInt host r t
        let r ← retrieveInt r t
        .ok (v, r)) := by
  refine ⟨?_, readInt_eq host⟩
  obtain ⟨b₁, hrun, ⟨b₁, rfl, hsize₁, -⟩, hcontent₁⟩ :=
    run_puts host hb.sound hputs
  obtain ⟨⟨vs, b₂⟩, hread, rfl, b₂, rfl, hcontent₂, hsize₂, -⟩ :=
    readInts_ok host hsize₁ hcontent₁
  have hlen : b.content.length ≤ b₂.readableBytes := by
    rw [← Buffer.length_content, hcontent₂, List.length_append]
    exact Nat.le_add_right ..
  obtain ⟨b₃, hretrieve, b₃, rfl, hcontent₃, hsize₃, -⟩ :=
    retrieve_leaves hsize₂ hlen
  have hrest : b₃.content = (appended puts).flatMap NetInt.bytes ++ [] := by
    rw [hcontent₃, hcontent₂, List.drop_left, List.append_nil]
  obtain ⟨⟨vs, b₄⟩, hread', rfl, b₄, rfl, hcontent₄, -⟩ :=
    readInts_ok host hsize₃ hrest
  exact ⟨b₁.raw, b₂.raw, b₃.raw, b₄.raw, hrun, hcontent₁, hread, hretrieve,
    hread', hcontent₄⟩

/-- Negative and extreme values at both ends. -/
def mixedPuts : List PutInt :=
  [.append (fun _ => true) (.int32 (-2)), .prepend (.int16 (-32768)),
    .append (fun _ => true) (.int8 127), .prepend (.int8 (-1))]

theorem ints_round_trip_mixed :
    ∃ b₁ b₂, run (step .little) .new mixedPuts = .ok b₁
      ∧ b₁.content = [255, 128, 0, 255, 255, 255, 254, 127]
      ∧ readInts .little [.int8, .int16] b₁
          = .ok ([.int8 (-1), .int16 (-32768)], b₂) := by
  have hputs : Along (step .little) Fits .new mixedPuts :=
    along_of_check (by decide +kernel)
  obtain ⟨⟨b₁, b₂, -, -, hrun, hcontent, hread, -⟩, -⟩ :=
    ints_round_trip .little Reachable.new hputs
  exact ⟨b₁, b₂, hrun, hcontent.trans (by decide +kernel), hread⟩

end Cobra.BufferInts
