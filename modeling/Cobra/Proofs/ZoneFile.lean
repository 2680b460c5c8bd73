/-
What `readTimeZoneFile` (Cobra.ZoneFile) makes of the bytes of a file.

# Main results

- `readTimeZoneFile_block`: a block of a zone file is decoded exactly.
- `robust_iff`: the constructor makes what it should of a file exactly if
  the file begins with a block whose indices are all in range. It makes a
  `TimeZone` that says it is valid of any other file too, unless reading
  the file has no outcome at all.

# How

Each part of the reader reads exactly the encodings of its values
(`Decodes`), so that a file that is read to its end began with a block
(`parse_inv`). A file that is not leaves a table without abbreviations
behind, because these come last (`parse_error`), and no index into them is
in range then.
-/
import Cobra.Proofs.LocalTime
import Cobra.ZoneFile

namespace Cobra.TimeZone

open Bytes ByteReader File

variable (host : ByteOrder)

-- ============================================================== the reads

/-- A read of so many bytes reads any such bytes. -/
theorem fread_decodes (n : Nat) (e : LogicError) :
    Decodes (fread n e) (fun bytes => bytes) (fun bytes => bytes.length = n) := by
  constructor
  · intro bytes rest out hlen
    unfold fread
    rw [if_neg (by simp [hlen]), List.take_left' hlen, List.drop_left' hlen]
  · intro c bytes c' h
    unfold fread at h
    split at h
    next => cases h
    next hlen =>
      cases h
      refine ⟨?_, (List.take_append_drop n c.rest).symm, rfl⟩
      rw [List.length_take]
      omega

theorem fread_keeps {γ : Type} (n : Nat) (e : LogicError) (f : Data → γ) :
    Keeps (fread n e) f := by
  constructor
  · intro c bytes c' h
    rw [((fread_decodes n e).inv h).2.2]
  · intro c e' c' h
    unfold fread at h
    split at h
    next =>
      cases h
      rfl
    next => cases h

theorem readBytes_of_nonneg {n : Int} (h : 0 ≤ n) :
    readBytes n = fread n.toNat .noEnoughData := by
  funext c
  unfold readBytes
  rw [if_neg (by omega)]

theorem readBytes_keeps {γ : Type} (n : Int) (f : Data → γ) :
    Keeps (readBytes n) f := by
  by_cases hneg : n < 0
  · constructor
    · intro c bytes c' h
      unfold readBytes at h
      rw [if_pos hneg] at h
      cases h
    · intro c e c' h
      unfold readBytes at h
      rw [if_pos hneg] at h
      cases h
      rfl
  · rw [readBytes_of_nonneg (by omega)]
    exact fread_keeps ..

-- ============================================================ the numbers

/-- The network's bytes of a number are read as the number. -/
theorem int32_of_bytes (x : Int32) :
    (be32toh host (UInt32.ofNat (host.load (int32Bytes x)))).toInt32 = x := by
  have hload := host.load_lt (int32Bytes x)
  rw [int32Bytes, length_toBE] at hload
  unfold be32toh int32Bytes
  rw [UInt32.toNat_ofNat_of_lt' hload,
    host.ofNetwork_load (k := 4) x.toUInt32.toNat_lt, UInt32.ofNat_toNat]
  exact Int32.toInt32_toUInt32 x

/-- Any four bytes are those of the number read. -/
theorem bytes_of_int32 {bytes : List UInt8} (h : bytes.length = 4) :
    int32Bytes (be32toh host (UInt32.ofNat (host.load bytes))).toInt32
      = bytes := by
  have hload := host.load_lt bytes
  rw [h] at hload
  have hswap := host.ofNetwork_lt hload
  unfold be32toh int32Bytes
  rw [UInt32.toNat_ofNat_of_lt' hload, UInt32.toUInt32_toInt32,
    UInt32.toNat_ofNat_of_lt' hswap, host.toBE_ofNetwork_load h]

theorem readInt32_decodes :
    Decodes (readInt32 host) int32Bytes (fun _ => True) := by
  have hfread := fread_decodes 4 .badInt32
  constructor
  · intro x rest out _
    have hlen : (int32Bytes x).length = 4 := length_toBE ..
    have hread := hfread.read (int32Bytes x) rest out hlen
    refine (bind_ok hread).trans ?_
    rw [int32_of_bytes]
    rfl
  · intro c x c' h
    obtain ⟨bytes, c1, hread, hrest⟩ := bind_ok_inv h
    cases hrest
    obtain ⟨hlen, hbytes, hout⟩ := hfread.inv hread
    rw [bytes_of_int32 host hlen]
    exact ⟨trivial, hbytes, hout⟩

theorem readInt32_keeps {γ : Type} (f : Data → γ) :
    Keeps (readInt32 host) f :=
  keeps_bind (fread_keeps ..) fun _ => keeps_pure _

theorem readUInt8_decodes : Decodes readUInt8 (fun x => [x]) (fun _ => True) := by
  have hfread := fread_decodes 1 .badUInt8
  constructor
  · intro x rest out _
    exact bind_ok (hfread.read [x] rest out rfl)
  · intro c x c' h
    obtain ⟨bytes, c1, hread, hrest⟩ := bind_ok_inv h
    cases hrest
    obtain ⟨hlen, hbytes, hout⟩ := hfread.inv hread
    obtain ⟨y, rfl⟩ := List.length_eq_one_iff.1 hlen
    exact ⟨trivial, hbytes, hout⟩

theorem readUInt8_keeps {γ : Type} (f : Data → γ) : Keeps readUInt8 f :=
  keeps_bind (fread_keeps ..) fun _ => keeps_pure _

-- ============================================================== the parts

theorem readCounts_decodes :
    Decodes (readCounts host) Counts.encode (fun _ => True) := by
  have hint := readInt32_decodes host
  constructor
  · intro c rest out _
    unfold Counts.encode
    simp only [List.append_assoc]
    unfold readCounts
    rw [bind_ok (hint.read _ _ out trivial), bind_ok (hint.read _ _ out trivial),
      bind_ok (hint.read _ _ out trivial), bind_ok (hint.read _ _ out trivial),
      bind_ok (hint.read _ _ out trivial), bind_ok (hint.read _ _ out trivial)]
    rfl
  · intro c counts c' h
    obtain ⟨isgmtcnt, c1, h1, h⟩ := bind_ok_inv h
    obtain ⟨isstdcnt, c2, h2, h⟩ := bind_ok_inv h
    obtain ⟨leapcnt, c3, h3, h⟩ := bind_ok_inv h
    obtain ⟨timecnt, c4, h4, h⟩ := bind_ok_inv h
    obtain ⟨typecnt, c5, h5, h⟩ := bind_ok_inv h
    obtain ⟨charcnt, c6, h6, h⟩ := bind_ok_inv h
    cases h
    obtain ⟨-, hb1, ho1⟩ := hint.inv h1
    obtain ⟨-, hb2, ho2⟩ := hint.inv h2
    obtain ⟨-, hb3, ho3⟩ := hint.inv h3
    obtain ⟨-, hb4, ho4⟩ := hint.inv h4
    obtain ⟨-, hb5, ho5⟩ := hint.inv h5
    obtain ⟨-, hb6, ho6⟩ := hint.inv h6
    refine ⟨trivial, ?_, ?_⟩
    · unfold Counts.encode
      simp only [List.append_assoc]
      rw [hb1, hb2, hb3, hb4, hb5, hb6]
    · rw [ho6, ho5, ho4, ho3, ho2, ho1]

theorem readCounts_keeps {γ : Type} (f : Data → γ) :
    Keeps (readCounts host) f := by
  have hint := readInt32_keeps host f
  exact keeps_bind hint fun _ => keeps_bind hint fun _ => keeps_bind hint
    fun _ => keeps_bind hint fun _ => keeps_bind hint fun _ => keeps_bind hint
    fun _ => keeps_pure _

theorem readTypeInfo_decodes :
    Decodes (readTypeInfo host) TypeInfo.encode (fun _ => True) := by
  have hint := readInt32_decodes host
  have hbyte := readUInt8_decodes
  constructor
  · intro t rest out _
    unfold TypeInfo.encode
    rw [List.append_assoc]
    unfold readTypeInfo
    rw [bind_ok (hint.read _ _ out trivial)]
    rw [show [t.isdst, t.abbrind] ++ rest = [t.isdst] ++ ([t.abbrind] ++ rest)
      from rfl]
    rw [bind_ok (hbyte.read t.isdst _ out trivial),
      bind_ok (hbyte.read t.abbrind _ out trivial)]
    rfl
  · intro c t c' h
    obtain ⟨gmtoff, c1, h1, h⟩ := bind_ok_inv h
    obtain ⟨isdst, c2, h2, h⟩ := bind_ok_inv h
    obtain ⟨abbrind, c3, h3, h⟩ := bind_ok_inv h
    cases h
    obtain ⟨-, hb1, ho1⟩ := hint.inv h1
    obtain ⟨-, hb2, ho2⟩ := hbyte.inv h2
    obtain ⟨-, hb3, ho3⟩ := hbyte.inv h3
    refine ⟨trivial, ?_, ?_⟩
    · unfold TypeInfo.encode
      rw [hb1, hb2, hb3, List.append_assoc]
      rfl
    · rw [ho3, ho2, ho1]

theorem readTypeInfo_keeps {γ : Type} (f : Data → γ) :
    Keeps (readTypeInfo host) f :=
  keeps_bind (readInt32_keeps host f) fun _ => keeps_bind (readUInt8_keeps f)
    fun _ => keeps_bind (readUInt8_keeps f) fun _ => keeps_pure _

/-- The head is `"TZif"` and sixteen bytes more. -/
theorem readHead_decodes :
    Decodes readHead (fun head => magic ++ head)
      (fun head => head.length = 16) := by
  have h4 := fread_decodes 4 .noEnoughData
  have h1 := fread_decodes 1 .noEnoughData
  have h15 := fread_decodes 15 .noEnoughData
  have e4 : readBytes 4 = fread 4 .noEnoughData :=
    readBytes_of_nonneg (n := 4) (by decide)
  have e1 : readBytes 1 = fread 1 .noEnoughData :=
    readBytes_of_nonneg (n := 1) (by decide)
  have e15 : readBytes 15 = fread 15 .noEnoughData :=
    readBytes_of_nonneg (n := 15) (by decide)
  unfold readHead
  rw [e4, e1, e15]
  constructor
  · intro head rest out hlen
    obtain ⟨version, reserved, rfl⟩ : ∃ x xs, head = x :: xs :=
      List.exists_cons_of_length_pos (by omega)
    rw [List.append_assoc, bind_ok (h4.read magic _ out rfl), if_pos rfl]
    rw [show (version :: reserved) ++ rest = [version] ++ (reserved ++ rest)
      from rfl]
    rw [bind_ok (h1.read [version] _ out rfl),
      bind_ok (h15.read reserved _ out (Nat.succ.inj hlen))]
    rfl
  · intro c head c' h
    obtain ⟨first, c1, hfirst, h⟩ := bind_ok_inv h
    obtain ⟨-, hb1, ho1⟩ := h4.inv hfirst
    split at h
    next hmagic =>
      obtain ⟨version, c2, hversion, h⟩ := bind_ok_inv h
      obtain ⟨reserved, c3, hreserved, h⟩ := bind_ok_inv h
      cases h
      obtain ⟨hl2, hb2, ho2⟩ := h1.inv hversion
      obtain ⟨hl3, hb3, ho3⟩ := h15.inv hreserved
      refine ⟨by rw [List.length_append, hl2, hl3], ?_, ?_⟩
      · rw [hb1, hb2, hb3, hmagic]
        simp only [List.append_assoc]
      · rw [ho3, ho2, ho1]
    next => cases h

theorem throws_keeps {α γ : Type} (e : LogicError) (f : Data → γ) :
    Keeps (throws e : File α) f := by
  constructor
  · intro c a c' h
    cases h
  · intro c e' c' h
    cases h
    rfl

theorem readHead_keeps {γ : Type} (f : Data → γ) : Keeps readHead f := by
  refine keeps_bind (readBytes_keeps 4 f) fun head => ?_
  split
  next =>
    exact keeps_bind (readBytes_keeps 1 f) fun _ =>
      keeps_bind (readBytes_keeps 15 f) fun _ => keeps_pure _
  next => exact throws_keeps ..

-- ============================================================== the loops

/-- A table with some more entries. -/
def Data.addLocaltimes (data : Data) (ls : List Localtime) : Data :=
  { data with localtimes := data.localtimes ++ ls }

theorem readLocaltimes_read (types : List TypeInfo) (rest : List UInt8)
    (out : Data) :
    readLocaltimes host types.length ⟨types.flatMap TypeInfo.encode ++ rest, out⟩
      = .ok () ⟨rest, out.addLocaltimes (types.map TypeInfo.localtime)⟩ := by
  induction types generalizing out with
  | nil =>
      unfold Data.addLocaltimes
      rw [List.map_nil, List.append_nil]
      rfl
  | cons t types ih =>
      rw [List.flatMap_cons, List.append_assoc, List.length_cons]
      unfold readLocaltimes
      rw [bind_ok ((readTypeInfo_decodes host).read t _ out trivial)]
      refine (bind_ok rfl).trans ((ih _).trans ?_)
      unfold Data.addLocaltimes
      rw [List.map_cons, List.append_assoc]
      rfl

theorem readLocaltimes_inv {n : Nat} {c c' : Cursor Data} {u : Unit}
    (h : readLocaltimes host n c = .ok u c') :
    ∃ types : List TypeInfo, types.length = n
      ∧ c.rest = types.flatMap TypeInfo.encode ++ c'.rest
      ∧ c'.out = c.out.addLocaltimes (types.map TypeInfo.localtime) := by
  induction n generalizing c with
  | zero =>
      cases h
      refine ⟨[], rfl, rfl, ?_⟩
      unfold Data.addLocaltimes
      rw [List.map_nil, List.append_nil]
  | succ n ih =>
      obtain ⟨t, c1, hread, h⟩ := bind_ok_inv h
      obtain ⟨u, c2, hpush, h⟩ := bind_ok_inv h
      cases hpush
      obtain ⟨-, hbytes, hout⟩ := (readTypeInfo_decodes host).inv hread
      obtain ⟨types, hlen, hbytes', hout'⟩ := ih h
      refine ⟨t :: types, congrArg Nat.succ hlen, ?_, ?_⟩
      · rw [hbytes, hbytes', List.flatMap_cons, List.append_assoc]
      · rw [hout']
        unfold Data.addLocaltimes
        rw [hout, List.map_cons, List.append_assoc]
        rfl

theorem pushLocaltime_keeps (l : Localtime) :
    Keeps (pushLocaltime l) Data.abbreviation := by
  constructor
  · intro c a c' h
    cases h
    rfl
  · intro c e c' h
    cases h

theorem readLocaltimes_keeps (n : Nat) :
    Keeps (readLocaltimes host n) Data.abbreviation := by
  induction n with
  | zero => exact keeps_pure ()
  | succ n ih =>
      exact keeps_bind (readTypeInfo_keeps host _) fun t =>
        keeps_bind (pushLocaltime_keeps t.localtime) fun _ => ih

/-- The transition that the loop makes of a time and an index. -/
def Data.transition (data : Data) (t : Int32) (localIdx : UInt8) :
    Transition where
  gmttime := t.toInt
  localtime := t.toInt
    + (data.localtimes.getD localIdx.toNat default).gmtOffset
  localtimeIdx := localIdx.toNat

/-- A table with some more transitions. -/
def Data.addTransitions (data : Data) (pairs : List (Int32 × UInt8)) : Data :=
  { data with transitions :=
      data.transitions ++ pairs.map fun p => data.transition p.1 p.2 }

theorem pushTransition_eq {c : Cursor Data} (t : Int32) {localIdx : UInt8}
    (h : localIdx.toNat < c.out.localtimes.length) :
    pushTransition t localIdx c
      = .ok () ⟨c.rest, c.out.addTransitions [(t, localIdx)]⟩ := by
  have hget : c.out.localtimes.getD localIdx.toNat default
      = c.out.localtimes[localIdx.toNat] := by
    rw [List.getD_eq_getElem?_getD, List.getElem?_eq_getElem h]
    rfl
  unfold pushTransition
  rw [List.getElem?_eq_getElem h]
  unfold Data.addTransitions Data.transition
  rw [List.map_singleton, hget]

/-- The loop over the transitions comes to its end exactly when every index
has a type. -/
theorem pushTransitions_eq {pairs : List (Int32 × UInt8)} {c : Cursor Data}
    (h : ∀ p ∈ pairs, p.2.toNat < c.out.localtimes.length) :
    pushTransitions pairs c = .ok () ⟨c.rest, c.out.addTransitions pairs⟩ := by
  induction pairs generalizing c with
  | nil =>
      unfold Data.addTransitions
      rw [List.map_nil, List.append_nil]
      rfl
  | cons p pairs ih =>
      obtain ⟨t, localIdx⟩ := p
      have hfirst : localIdx.toNat < c.out.localtimes.length :=
        h (t, localIdx) List.mem_cons_self
      have hrest : ∀ q ∈ pairs, q.2.toNat
          < (c.out.addTransitions [(t, localIdx)]).localtimes.length :=
        fun q hq => h q (List.mem_cons_of_mem _ hq)
      refine (bind_ok (pushTransition_eq t hfirst)).trans
        ((@ih ⟨c.rest, c.out.addTransitions [(t, localIdx)]⟩ hrest).trans ?_)
      unfold Data.addTransitions
      rw [List.map_cons, List.append_assoc]
      rfl

theorem pushTransitions_inv {pairs : List (Int32 × UInt8)} {c c' : Cursor Data}
    {u : Unit} (h : pushTransitions pairs c = .ok u c') :
    ∀ p ∈ pairs, p.2.toNat < c.out.localtimes.length := by
  induction pairs generalizing c with
  | nil => exact fun _ hmem => (nomatch hmem)
  | cons p pairs ih =>
      obtain ⟨t, localIdx⟩ := p
      obtain ⟨u', c1, hpush, h⟩ := bind_ok_inv h
      have hfirst : localIdx.toNat < c.out.localtimes.length := by
        by_contra hout
        unfold pushTransition at hpush
        rw [List.getElem?_eq_none (by omega)] at hpush
        cases hpush
      rw [pushTransition_eq t hfirst] at hpush
      cases hpush
      intro q hq
      obtain rfl | hq := List.mem_cons.1 hq
      · exact hfirst
      · exact ih h q hq

theorem pushTransitions_keeps (pairs : List (Int32 × UInt8)) :
    Keeps (pushTransitions pairs) Data.abbreviation := by
  induction pairs with
  | nil => exact keeps_pure ()
  | cons p pairs ih =>
      obtain ⟨t, localIdx⟩ := p
      refine keeps_bind ?_ fun _ => ih
      constructor
      · intro c a c' h
        unfold pushTransition at h
        split at h
        next => cases h
        next =>
          cases h
          rfl
      · intro c e c' h
        unfold pushTransition at h
        split at h
        next =>
          cases h
          rfl
        next => cases h

-- ========================================================== the whole file

theorem mem_indices {b : ZoneBlock} {p : Int32 × UInt8}
    (h : p ∈ b.times.zip b.indices) : p.2 ∈ b.indices :=
  (List.of_mem_zip (a := p.1) (b := p.2) h).2

theorem reserve_ok {timecnt : Int32} (h : 0 ≤ timecnt.toInt)
    (c : Cursor Data) : reserve timecnt c = .ok () c := by
  unfold reserve
  rw [if_neg (by omega)]
  rfl

/-- What is behind the head of a block. -/
theorem readBody_read (b : ZoneBlock) (h : b.TypesInRange)
    (rest : List UInt8) :
    readBody host ⟨b.counts.encode ++ (b.times.flatMap int32Bytes
        ++ (b.indices ++ (b.types.flatMap TypeInfo.encode
          ++ (b.chars ++ rest)))), .new⟩
      = .ok b.chars ⟨rest, (Data.new.addLocaltimes b.localtimes).addTransitions
          (b.times.zip b.indices)⟩ := by
  have htimecnt : b.counts.timecnt.toInt.toNat = b.times.length := by
    have h := b.timecnt
    omega
  have htypecnt : b.counts.typecnt.toInt.toNat = b.types.length := by
    have h := b.typecnt
    omega
  have hcharcnt : readBytes b.counts.charcnt.toInt
      = fread b.chars.length .noEnoughData := by
    rw [b.charcnt, readBytes_of_nonneg (Int.natCast_nonneg _),
      Int.toNat_natCast]
  have htimecnt' : 0 ≤ b.counts.timecnt.toInt := by
    have h := b.timecnt
    omega
  have htimes := ((readInt32_decodes host).times b.times.length).read b.times
  have hindices := (readUInt8_decodes.times b.times.length).read b.indices
  rw [List.flatMap_singleton'] at hindices
  have htypes := readLocaltimes_read host b.types
  have hpairs : ∀ p ∈ b.times.zip b.indices, p.2.toNat
      < (Data.new.addLocaltimes b.localtimes).localtimes.length := by
    intro p hp
    have hlt := h p.2 (mem_indices hp)
    unfold Data.addLocaltimes ZoneBlock.localtimes
    rw [List.length_append, List.length_map]
    exact Nat.lt_of_lt_of_le hlt (Nat.le_add_left ..)
  have hchars := (fread_decodes b.chars.length .noEnoughData).read b.chars
  unfold readBody
  rw [bind_ok ((readCounts_decodes host).read b.counts _ _ trivial),
    htimecnt, htypecnt, hcharcnt]
  rw [bind_ok (reserve_ok htimecnt' _), bind_ok (htimes _ _ ⟨rfl, fun _ _ => trivial⟩),
    bind_ok (hindices _ _ ⟨b.indices_length, fun _ _ => trivial⟩),
    bind_ok (htypes _ _)]
  exact (bind_ok (pushTransitions_eq hpairs)).trans (hchars _ _ rfl)

/-- A block is read as the table that it means. -/
theorem parse_read (b : ZoneBlock) (h : b.TypesInRange) (rest : List UInt8) :
    parse host ⟨b.encode ++ rest, .new⟩ = .ok () ⟨rest, b.data⟩ := by
  have hhead := readHead_decodes.read b.head
  unfold ZoneBlock.encode parse
  rw [← List.append_assoc magic, List.append_assoc (magic ++ b.head),
    bind_ok (hhead _ _ b.head_length)]
  simp only [List.append_assoc]
  rw [bind_ok (readBody_read host b h rest)]
  rfl

theorem readBytes_inv {n : Int} {c c' : Cursor Data} {bytes : List UInt8}
    (h : readBytes n c = .ok bytes c') :
    n = bytes.length ∧ c.rest = bytes ++ c'.rest ∧ c'.out = c.out := by
  by_cases hneg : n < 0
  · unfold readBytes at h
    rw [if_pos hneg] at h
    cases h
  · rw [readBytes_of_nonneg (by omega)] at h
    obtain ⟨hlen, hrest⟩ := (fread_decodes ..).inv h
    exact ⟨by omega, hrest⟩

theorem reserve_inv {timecnt : Int32} {c c' : Cursor Data} {u : Unit}
    (h : reserve timecnt c = .ok u c') : 0 ≤ timecnt.toInt ∧ c' = c := by
  unfold reserve at h
  split at h
  next => cases h
  next hpos =>
    cases h
    exact ⟨by omega, rfl⟩

/-- Every index stands beside a time. -/
theorem exists_mem_zip {times : List Int32} {indices : List UInt8}
    (hlen : indices.length = times.length) {i : UInt8} (hi : i ∈ indices) :
    ∃ t, (t, i) ∈ times.zip indices := by
  obtain ⟨n, hn, rfl⟩ := List.mem_iff_getElem.1 hi
  have hzip : n < (times.zip indices).length := by
    rw [List.length_zip]
    omega
  refine ⟨times[n], ?_⟩
  rw [← List.getElem_zip (h := hzip)]
  exact List.getElem_mem hzip

/-- What was read to its end, with at least one type, was a block. -/
theorem parse_inv {content : List UInt8} {c : Cursor Data} {u : Unit}
    (h : parse host ⟨content, .new⟩ = .ok u c) (hne : c.out.localtimes ≠ []) :
    ∃ b : ZoneBlock, b.TypesInRange ∧ content = b.encode ++ c.rest
      ∧ c.out = b.data := by
  obtain ⟨head, c1, hhead, h⟩ := bind_ok_inv h
  obtain ⟨chars, c2, hbody, hset⟩ := bind_ok_inv h
  cases hset
  obtain ⟨counts, c3, hcounts, hbody⟩ := bind_ok_inv hbody
  obtain ⟨_, c4, hreserve, hbody⟩ := bind_ok_inv hbody
  obtain ⟨times, c5, htimes, hbody⟩ := bind_ok_inv hbody
  obtain ⟨indices, c6, hindices, hbody⟩ := bind_ok_inv hbody
  obtain ⟨_, c7, htypes, hbody⟩ := bind_ok_inv hbody
  obtain ⟨_, c8, hpairs, hchars⟩ := bind_ok_inv hbody
  -- each part was an encoding, and only the loops have added to the table
  obtain ⟨hlen1, hb1, ho1⟩ := readHead_decodes.inv hhead
  obtain ⟨-, hb3, ho3⟩ := (readCounts_decodes host).inv hcounts
  obtain ⟨htimecnt, rfl⟩ := reserve_inv hreserve
  obtain ⟨⟨hlen5, -⟩, hb5, ho5⟩ := ((readInt32_decodes host).times _).inv htimes
  obtain ⟨⟨hlen6, -⟩, hb6, ho6⟩ := (readUInt8_decodes.times _).inv hindices
  obtain ⟨types, hlen7, hb7, ho7⟩ := readLocaltimes_inv host htypes
  have hrange := pushTransitions_inv hpairs
  rw [pushTransitions_eq hrange] at hpairs
  cases hpairs
  obtain ⟨hcharcnt, hb8, ho8⟩ := readBytes_inv hchars
  rw [List.flatMap_singleton'] at hb6
  dsimp only at hb1 ho1 hb8 ho8 hne
  rw [ho6, ho5, ho3, ho1] at ho7
  rw [ho7] at ho8 hrange
  have hlocaltimes : c2.out.localtimes = types.map TypeInfo.localtime := by
    rw [ho8]
    rfl
  have htypecnt : counts.typecnt.toInt = types.length := by
    have hpos : types ≠ [] := by
      rintro rfl
      exact hne hlocaltimes
    have hlength := List.length_pos_iff.2 hpos
    omega
  have hindices' : indices.length = times.length := by rw [hlen6, hlen5]
  refine ⟨⟨head, counts, times, indices, types, chars, hlen1, by omega,
    hindices', htypecnt, hcharcnt⟩, ?_, ?_, ?_⟩
  · intro i hi
    obtain ⟨t, hmem⟩ := exists_mem_zip hindices' hi
    have hlt := hrange (t, i) hmem
    unfold Data.addLocaltimes Data.new at hlt
    simp only [List.nil_append, List.length_map] at hlt
    exact hlt
  · unfold ZoneBlock.encode
    rw [hb1, hb3, hb5, hb6, hb7, hb8]
    simp only [List.append_assoc]
  · rw [ho8]
    rfl

theorem readBody_keeps : Keeps (readBody host) Data.abbreviation := by
  refine keeps_bind (readCounts_keeps host _) fun counts => ?_
  refine keeps_bind ?_ fun _ => ?_
  · unfold reserve
    split
    next => exact throws_keeps ..
    next => exact keeps_pure ()
  · exact keeps_bind (keeps_times (readInt32_keeps host _) _) fun _ =>
      keeps_bind (keeps_times (readUInt8_keeps _) _) fun _ =>
      keeps_bind (readLocaltimes_keeps host _) fun _ =>
      keeps_bind (pushTransitions_keeps _) fun _ => readBytes_keeps ..

/-- A file that is not read to its end leaves a table without
abbreviations. -/
theorem parse_error {content : List UInt8} {e : Halt} {c : Cursor Data}
    (h : parse host ⟨content, .new⟩ = .error e c) : c.out.abbreviation = [] := by
  cases hhead : readHead ⟨content, Data.new⟩ with
  | error e' c1 =>
      rw [parse, bind_error hhead] at h
      cases h
      exact (readHead_keeps _).error hhead
  | ok head c1 =>
      rw [parse, bind_ok hhead] at h
      cases hbody : readBody host c1 with
      | error e' c2 =>
          rw [bind_error hbody] at h
          cases h
          exact ((readBody_keeps host).error hbody).trans
            ((readHead_keeps _).ok hhead)
      | ok chars c2 =>
          rw [bind_ok hbody] at h
          cases h

-- ======================================================= well-formed files

theorem readTimeZoneFile_read (b : ZoneBlock) (h : b.TypesInRange)
    (rest : List UInt8) :
    readTimeZoneFile host (some (b.encode ++ rest))
      = .ok ⟨true, b.data, none⟩ := by
  unfold readTimeZoneFile
  dsimp only
  rw [parse_read host b h rest]

/-- A block is decoded exactly, whatever follows it. The sums of a time and
an offset are not bounded by 32 bits. -/
theorem readTimeZoneFile_block (b : ZoneBlock) (h : b.TypesInRange)
    (rest : List UInt8) :
    ∃ data, readTimeZoneFile host (some (b.encode ++ rest))
        = .ok ⟨true, data, none⟩
      ∧ data.localtimes = b.types.map
          (fun t => ⟨t.gmtoff.toInt, t.isdst != 0, t.abbrind.toNat⟩)
      ∧ data.abbreviation = b.chars
      ∧ data.transitions.length = b.times.length
      ∧ ∀ i < b.times.length, ∃ t idx type, b.times[i]? = some t
          ∧ b.indices[i]? = some idx ∧ b.types[idx.toNat]? = some type
          ∧ data.transitions[i]?
            = some ⟨t.toInt, t.toInt + type.gmtoff.toInt, idx.toNat⟩ := by
  have hlen := b.indices_length
  refine ⟨b.data, readTimeZoneFile_read host b h rest, rfl, rfl, ?_, ?_⟩
  · unfold ZoneBlock.data
    rw [List.length_map, List.length_zip, hlen, Nat.min_self]
  · intro i hi
    have hi' : i < b.indices.length := by omega
    have hidx := h b.indices[i] (List.getElem_mem hi')
    refine ⟨b.times[i], b.indices[i], b.types[b.indices[i].toNat],
      List.getElem?_eq_getElem hi, List.getElem?_eq_getElem hi',
      List.getElem?_eq_getElem hidx, ?_⟩
    unfold ZoneBlock.data ZoneBlock.transition ZoneBlock.localtimes
    dsimp only
    rw [List.getElem?_map, List.zip_eq_zipWith, List.getElem?_zipWith,
      List.getElem?_eq_getElem hi, List.getElem?_eq_getElem hi']
    simp [List.getD_eq_getElem?_getD, List.getElem?_eq_getElem hidx,
      TypeInfo.localtime]

/-- One transition, at a time whose local time is out of 32 bits. -/
def sampleBlock : ZoneBlock where
  head := List.replicate 16 0
  counts := ⟨0, 0, 0, 1, 1, 4⟩
  times := [-2147483648]
  indices := [0]
  types := [⟨-18000, 0, 0⟩]
  -- "EST" and its NUL
  chars := [69, 83, 84, 0]
  head_length := by decide
  timecnt := by decide
  indices_length := by decide
  typecnt := by decide
  charcnt := by decide

theorem readTimeZoneFile_block_early :
    sampleBlock.TypesInRange
      ∧ ∃ data, readTimeZoneFile .little (some (sampleBlock.encode ++ [1, 2]))
          = .ok ⟨true, data, none⟩
        ∧ data.localtimes = sampleBlock.types.map
            (fun t => ⟨t.gmtoff.toInt, t.isdst != 0, t.abbrind.toNat⟩)
        ∧ data.abbreviation = sampleBlock.chars
        ∧ data.transitions.length = sampleBlock.times.length
        ∧ ∀ i < sampleBlock.times.length, ∃ t idx type,
            sampleBlock.times[i]? = some t
            ∧ sampleBlock.indices[i]? = some idx
            ∧ sampleBlock.types[idx.toNat]? = some type
            ∧ data.transitions[i]?
              = some ⟨t.toInt, t.toInt + type.gmtoff.toInt, idx.toNat⟩ :=
  have h : sampleBlock.TypesInRange := by
    unfold ZoneBlock.TypesInRange
    decide +kernel
  ⟨h, readTimeZoneFile_block .little sampleBlock h [1, 2]⟩

-- ================================================================ any file

/-- What a zone needs of the bytes of a file: nothing without an outcome on
the way, and then no data, or data whose indices are in range and lookups
that cannot fail. -/
def Robust (content : List UInt8) : Prop :=
  ∃ tz, ofFile host (some content) = .ok tz
    ∧ (tz.valid = false ∨ ∃ data, tz.data = some data ∧ data.InRange
      ∧ (∀ gmtime_r seconds, ∃ tm, tz.toLocalTime gmtime_r seconds = .ok tm)
      ∧ ∀ gmtime_r timegm localTm,
          ∃ t, tz.fromLocalTime gmtime_r timegm localTm = .ok t)

/-- There are types, and every index of a block is in range. -/
structure ZoneBlock.Sound (b : ZoneBlock) : Prop where
  types_ne : b.types ≠ []
  indices : b.TypesInRange
  abbrinds : ∀ t ∈ b.types, t.abbrind.toNat < b.chars.length

theorem inRange_of_sound {b : ZoneBlock} (h : b.Sound) : b.data.InRange := by
  refine ⟨⟨?_, ?_⟩, ?_⟩
  · exact fun hnil => h.types_ne (List.map_eq_nil_iff.1 hnil)
  · intro t ht
    obtain ⟨p, hp, rfl⟩ := List.mem_map.1 ht
    have hlt := h.indices p.2 (mem_indices hp)
    unfold ZoneBlock.data ZoneBlock.transition ZoneBlock.localtimes
    simp only [List.length_map]
    omega
  · intro l hl
    obtain ⟨t, ht, rfl⟩ := List.mem_map.1 hl
    have hlt := h.abbrinds t ht
    unfold ZoneBlock.data TypeInfo.localtime
    simp only
    omega

theorem sound_of_inRange {b : ZoneBlock} (h : b.data.InRange)
    (hindices : b.TypesInRange) : b.Sound := by
  refine ⟨?_, hindices, ?_⟩
  · exact fun hnil => h.nonempty (List.map_eq_nil_iff.2 hnil)
  · intro t ht
    have hlt := (h.abbreviation t.localtime (List.mem_map.2 ⟨t, ht, rfl⟩)).2
    unfold ZoneBlock.data TypeInfo.localtime at hlt
    simp only at hlt
    omega

theorem not_inRange_of_abbreviation {data : Data} (h : data.abbreviation = []) :
    ¬ data.InRange := by
  intro hrange
  obtain ⟨l, ls, hl⟩ := List.exists_cons_of_ne_nil hrange.nonempty
  have hlt := hrange.abbreviation l (by rw [hl]; exact List.mem_cons_self)
  rw [h, List.length_nil] at hlt
  omega

/-- The constructor keeps whatever `readTimeZoneFile` has filled in. -/
theorem ofFile_inv {content : List UInt8} {tz : TimeZone}
    (h : ofFile host (some content) = .ok tz) :
    ∃ c : Cursor Data, tz.data = some c.out
      ∧ ((∃ u, parse host ⟨content, .new⟩ = .ok u c)
        ∨ ∃ e, parse host ⟨content, .new⟩ = .error e c) := by
  unfold ofFile readTimeZoneFile at h
  dsimp only at h
  cases hparse : parse host ⟨content, Data.new⟩ with
  | ok u c =>
      rw [hparse] at h
      cases h
      exact ⟨c, rfl, .inl ⟨u, rfl⟩⟩
  | error e c =>
      rw [hparse] at h
      cases e with
      | undefined f => cases h
      | logicError e =>
          cases h
          exact ⟨c, rfl, .inr ⟨_, rfl⟩⟩

/-- A zone is what it should be exactly for the files that begin with a
block in which every index is in range. -/
theorem robust_iff (content : List UInt8) :
    Robust host content
      ↔ ∃ b : ZoneBlock, b.Sound ∧ ∃ rest, content = b.encode ++ rest := by
  constructor
  · rintro ⟨tz, hfile, hrobust⟩
    obtain ⟨c, hdata, hparse⟩ := ofFile_inv host hfile
    obtain hinvalid | ⟨data, hdata', hrange, -⟩ := hrobust
    · unfold valid at hinvalid
      rw [hdata] at hinvalid
      cases hinvalid
    · rw [hdata] at hdata'
      cases hdata'
      obtain ⟨u, hok⟩ | ⟨e, herror⟩ := hparse
      · obtain ⟨b, hindices, hbytes, hout⟩ := parse_inv host hok hrange.nonempty
        rw [hout] at hrange
        exact ⟨b, sound_of_inRange hrange hindices, c.rest, hbytes⟩
      · exact absurd hrange (not_inRange_of_abbreviation (parse_error host herror))
  · rintro ⟨b, hsound, rest, rfl⟩
    have hrange := inRange_of_sound hsound
    refine ⟨⟨some b.data⟩, ?_, .inr ⟨b.data, rfl, hrange, ?_, ?_⟩⟩
    · unfold ofFile
      rw [readTimeZoneFile_read host b hsound.indices rest]
      rfl
    · intro gmtime_r seconds
      exact toLocalTime_safe hrange gmtime_r seconds
    · intro gmtime_r timegm localTm
      exact fromLocalTime_safe hrange gmtime_r timegm localTm

/-- An empty file makes a zone that says it is valid, without a table. -/
theorem empty_file_is_valid :
    ofFile .little (some []) = .ok ⟨some Data.new⟩
      ∧ (⟨some Data.new⟩ : TimeZone).valid = true
      ∧ ¬ Robust .little [] := by
  refine ⟨rfl, rfl, ?_⟩
  rintro ⟨tz, hfile, hrobust⟩
  cases hfile
  obtain hinvalid | ⟨data, hdata, hrange, -⟩ := hrobust
  · cases hinvalid
  · cases hdata
    exact not_inRange_of_abbreviation rfl hrange

end Cobra.TimeZone
