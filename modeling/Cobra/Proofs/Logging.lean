/-
When the record of a log statement ends with the newline that `finish`
writes.

# The argument

The header, the items and the trailer are all insertions, so that what a
record holds is read off the content alone (`Fills`, `Item.fill`). Only
its length decides which pieces of the trailer have room, and the line
number never takes the last bytes: it is left out below 32. What remains
is arithmetic on the level `n` that the items leave and the length `k` of
the file's name (`newline_fits_iff`).

With less than six bytes left, or with a name that ends one or two bytes
in front of the last one, `':'` takes the place of the newline or both
are left out. At three bytes left `" - "` is left out and the newline has
room again.
-/
import Cobra.Logging
import Cobra.Proofs.LogStream

namespace Cobra

open Machine Detail RawFixedBuffer LogStream

-- ============================================================ the inputs

/-- What the assertions ask for: the texts of the header have the lengths
that they are known to have. -/
structure LogContext.Ok (ctx : LogContext) : Prop where
  mem : ctx.mem.length = kSmallBuffer
  time : strlen ctx.time = .ok 17
  micros : ctx.micros.length = 9 ∧ strlen (ctx.micros ++ [0]) = .ok 9
  tidString : strlen ctx.tidString = .ok 6
  strerror : ∀ errno, 0 ∈ ctx.strerror errno

/-- A text with a zero behind it; the length of an array is an `int`. -/
def Source.Ok : Source → Prop
  | .array arr => 0 ∈ arr ∧ arr.length < intMod
  | .filename name => 0 ∈ name

def LoggerMaker.Ok : LoggerMaker → Prop
  | .levelFunc _ func => 0 ∈ func
  | _ => True

structure LogStatement.Ok (stmt : LogStatement) : Prop where
  source : stmt.source.Ok
  maker : stmt.maker.Ok
  items : ∀ item ∈ stmt.items, item.Ok

/-- A `size_t` as an `int` is one, and not larger. -/
theorem castInt_bounds (n : Nat) :
    -intMod ≤ castInt n ∧ castInt n < intMod ∧ castInt n ≤ n := by
  unfold castInt intMod
  split <;> omega

theorem strlen_inv {mem : List UInt8} {n : Nat} (h : strlen mem = .ok n) :
    0 ∈ mem ∧ n < mem.length := by
  obtain ⟨_, hreq, hok⟩ := bind_ok_inv h
  cases hok
  have hmem : 0 ∈ mem := require_inv hreq
  exact ⟨hmem, List.idxOf_lt_length_iff.2 hmem⟩

theorem strlen_of_mem {mem : List UInt8} (h : 0 ∈ mem) :
    ∃ n, strlen mem = .ok n ∧ n < mem.length :=
  ⟨_, require_bind h _, List.idxOf_lt_length_iff.2 h⟩

-- ============================================================== the file

namespace SourceFile

/-- The file's name as an item. -/
def item (f : SourceFile) : Item := .piece ⟨f.data, f.size⟩

/-- `strrchr` finds a place in front of the zero, if it finds one. -/
theorem strrchr_ok {mem : List UInt8} {c : UInt8} (h : 0 ∈ mem) :
    Holds (strrchr mem c) fun slash =>
      ∀ i, slash = some i → i + 1 < mem.length ∧ 0 ∈ mem.drop (i + 1) := by
  have hlt : mem.idxOf 0 < mem.length := List.idxOf_lt_length_iff.2 h
  have hlen : strlen mem = .ok (mem.idxOf 0) := require_bind h _
  unfold strrchr
  rw [hlen, ok_bind]
  by_cases hc : c ∈ mem.take (mem.idxOf 0)
  · rw [if_pos hc]
    refine holds_ok fun i hi => ?_
    have hplace : (mem.take (mem.idxOf 0)).reverse.idxOf c < mem.idxOf 0 := by
      have hin := List.idxOf_lt_length_iff.2 (List.mem_reverse.2 hc)
      rw [List.length_reverse, List.length_take] at hin
      omega
    have hi' := Option.some.inj hi
    refine ⟨by omega, ?_⟩
    apply List.mem_of_getElem? (i := mem.idxOf 0 - (i + 1))
    rw [List.getElem?_drop, Nat.add_sub_cancel' (by omega),
      List.getElem?_idxOf h]
  · rw [if_neg hc]
    refine holds_ok fun i hi => ?_
    cases hi

/-- The size that `strlen` gives, as an `int`, is not too large. -/
theorem strlen_item_ok {data : List UInt8} (h : 0 ∈ data) :
    Holds (do
      let len ← strlen data
      .ok { data := data, size := castInt len }
      : Except StreamFault SourceFile) fun file => file.item.Ok := by
  obtain ⟨n, hn, hlt⟩ := strlen_of_mem h
  obtain ⟨hlow, hhigh, hle⟩ := castInt_bounds n
  rw [hn, ok_bind]
  refine holds_ok ?_
  show -(intMod : Int) ≤ castInt n ∧ castInt n < intMod
    ∧ castInt n ≤ data.length
  omega

/-- A `SourceFile` points at as many bytes as it says. -/
theorem file_ok {source : Source} (h : source.Ok) :
    Holds source.file fun file => file.item.Ok := by
  cases source with
  | array arr =>
      obtain ⟨hzero, hlen⟩ := h
      have hpos := List.length_pos_of_mem hzero
      have hint : (0 : Int) ≤ intMod := Int.natCast_nonneg _
      obtain ⟨slash, hslash, hplace⟩ := strrchr_ok (c := 47) hzero
      show Holds (ofArray arr) _
      unfold ofArray
      rw [hslash, ok_bind]
      cases slash with
      | none =>
          refine holds_ok ?_
          show -(intMod : Int) ≤ (arr.length : Int) - 1
            ∧ (arr.length : Int) - 1 < intMod
            ∧ (arr.length : Int) - 1 ≤ arr.length
          omega
      | some i =>
          obtain ⟨hi, -⟩ := hplace i rfl
          refine holds_ok ?_
          show -(intMod : Int) ≤ (arr.length : Int) - 1 - (i + 1)
            ∧ (arr.length : Int) - 1 - (i + 1) < intMod
            ∧ (arr.length : Int) - 1 - (i + 1) ≤ (arr.drop (i + 1)).length
          rw [List.length_drop]
          omega
  | filename name =>
      obtain ⟨slash, hslash, hplace⟩ := strrchr_ok (c := 47) h
      show Holds (ofFilename name) _
      unfold ofFilename
      rw [hslash, ok_bind]
      cases slash with
      | none => exact strlen_item_ok h
      | some i => exact strlen_item_ok (hplace i rfl).2

end SourceFile

-- ============================================================ the header

/-- The content after the items. -/
def filled (content : List UInt8) (items : List Item) : List UInt8 :=
  items.foldl (Item.fill kSmallBuffer) content

theorem filled_nil (content : List UInt8) : filled content [] = content := rfl

theorem filled_cons (content : List UInt8) (item : Item) (items : List Item) :
    filled content (item :: items)
      = filled (item.fill kSmallBuffer content) items := rfl

theorem filled_append (content : List UInt8) (items more : List Item) :
    filled content (items ++ more) = filled (filled content items) more :=
  List.foldl_append

/-- The stream has room for a zero, and the content is this. -/
def Fills (content : List UInt8) (s : LogStream) : Prop :=
  s.Good kSmallBuffer ∧ s.content = content

section Fills

variable {content : List UInt8} {s : LogStream}

theorem Fills.insert (hs : Fills content s) (item : Item) (h : item.Ok) :
    Holds (s.insert item) (Fills (item.fill kSmallBuffer content)) := by
  obtain ⟨hgood, rfl⟩ := hs
  exact insert_fill (by decide) hgood h

/-- A text whose length is known, as an item. -/
def known (str : List UInt8) (len : Nat) : Item := .piece ⟨str, castInt len⟩

theorem known_create {str : List UInt8} {len : Nat}
    (h : strlen str = .ok len) : KnownText.create str len = .ok ⟨str, len⟩ := by
  unfold KnownText.create
  rw [h, ok_bind]
  exact require_bind rfl _

/-- `stream_ << T(str, len)`. -/
theorem Fills.insertKnown (hs : Fills content s) {str : List UInt8} {len : Nat}
    (h : strlen str = .ok len) :
    Holds (s.insertKnown ⟨str, len⟩)
      (Fills ((known str len).fill kSmallBuffer content)) := by
  have hitem : (known str len).Ok := by
    obtain ⟨hlow, hhigh, hle⟩ := castInt_bounds len
    have hlen := (strlen_inv h).2
    show -(intMod : Int) ≤ castInt len ∧ castInt len < intMod
      ∧ castInt len ≤ str.length
    omega
  exact hs.insert _ hitem

/-- Items inserted in a row. -/
theorem Fills.run (hs : Fills content s) {items : List Item}
    (h : ∀ item ∈ items, item.Ok) :
    Holds (Machine.run StreamCall.step s (items.map .insert))
      (Fills (filled content items)) := by
  obtain ⟨hgood, rfl⟩ := hs
  exact run_fill (by decide) h hgood

end Fills

/-- The items of `if (savedErrno != 0)`. -/
def errnoItems (ctx : LogContext) (savedErrno : Int32) : List Item :=
  if savedErrno ≠ 0 then
    [.chars (ctx.strerror savedErrno), .chars (literal " (errno="),
      .int savedErrno, .chars (literal ") ")]
  else []

/-- The header of a record. -/
def header (ctx : LogContext) (level : LogLevel) (savedErrno : Int32) :
    List Item :=
  [known ctx.time 17, known (ctx.micros ++ [0]) 9, known ctx.tidString 6,
    known (literal level.name) 6] ++ errnoItems ctx savedErrno

namespace LoggerImpl

variable {ctx : LogContext} (hctx : ctx.Ok)
include hctx

theorem formatTime_ok :
    Holds (formatTime ctx (.new ctx.mem))
      (Fills (filled [] [known ctx.time 17, known (ctx.micros ++ [0]) 9])) := by
  have hpos : 0 < kSmallBuffer := by decide
  have hnew : Fills [] (.new ctx.mem) := ⟨⟨hctx.mem, hpos⟩, rfl⟩
  have hmicros : ctx.micros.length < 32 := by
    rw [hctx.micros.1]
    decide
  have hlength : (⟨ctx.micros, hmicros⟩ : Fmt).length = 9 := by
    unfold Fmt.length
    rw [hctx.micros.1]
    decide
  unfold formatTime Fmt.create
  rw [dif_pos hmicros, ok_bind, require_bind hlength,
    known_create hctx.time, ok_bind, known_create hctx.micros.2, ok_bind]
  refine holds_bind (hnew.insertKnown hctx.time) fun s hs => ?_
  rw [filled_cons, filled_cons, filled_nil]
  exact hs.insertKnown hctx.micros.2

theorem insertErrno_ok {content : List UInt8} {s : LogStream}
    (hs : Fills content s) (savedErrno : Int32) :
    Holds (insertErrno ctx s savedErrno)
      (Fills (filled content (errnoItems ctx savedErrno))) := by
  have hopen : (Item.chars (literal " (errno=")).Ok := by decide
  have hclose : (Item.chars (literal ") ")).Ok := by decide
  unfold insertErrno errnoItems
  split
  next hne =>
    rw [filled_cons, filled_cons, filled_cons, filled_cons, filled_nil]
    refine holds_bind (hs.insert _ (hctx.strerror savedErrno)) fun s hs => ?_
    refine holds_bind (hs.insert _ hopen) fun s hs => ?_
    refine holds_bind (hs.insert _ trivial) fun s hs => ?_
    exact hs.insert _ hclose
  next => exact holds_ok hs

/-- The constructor of `Impl` writes the header. -/
theorem create_ok (level : LogLevel) (savedErrno : Int32) (file : SourceFile)
    (line : Int32) :
    Holds (create ctx level savedErrno file line) fun impl =>
      Fills (filled [] (header ctx level savedErrno)) impl.stream
        ∧ impl.line = line ∧ impl.basename = file := by
  have hname : strlen (literal level.name) = .ok 6 := by
    cases level <;> decide
  unfold create
  refine holds_bind (formatTime_ok hctx) fun s hs => ?_
  rw [known_create hctx.tidString, ok_bind]
  refine holds_bind (hs.insertKnown hctx.tidString) fun s hs => ?_
  rw [known_create hname, ok_bind]
  refine holds_bind (hs.insertKnown hname) fun s hs => ?_
  refine holds_bind (insertErrno_ok hctx hs savedErrno) fun s hs => ?_
  refine holds_ok ⟨?_, rfl, rfl⟩
  unfold header
  rw [filled_append, filled_cons, filled_cons, filled_cons, filled_cons,
    filled_nil]
  exact hs

end LoggerImpl

namespace Logger

/-- What a constructor of `Logger` has inserted. -/
def prologue (ctx : LogContext) : LoggerMaker → List Item
  | .plain => header ctx .info 0
  | .levelFunc level func => header ctx level 0 ++ [.chars func, .char 32]
  | .level level => header ctx level 0
  | .toAbort toAbort errno =>
      header ctx (if toAbort then .fatal else .error) errno

theorem create_ok {ctx : LogContext} (hctx : ctx.Ok) (file : SourceFile)
    (line : Int32) {maker : LoggerMaker} (hmaker : maker.Ok) :
    Holds (create ctx file line maker) fun impl =>
      Fills (filled [] (prologue ctx maker)) impl.stream
        ∧ impl.line = line ∧ impl.basename = file := by
  cases maker with
  | plain => exact LoggerImpl.create_ok hctx ..
  | levelFunc level func =>
      refine holds_bind (LoggerImpl.create_ok hctx level 0 file line)
        fun impl himpl => ?_
      obtain ⟨hs, hrest⟩ := himpl
      refine holds_bind (hs.insert _ hmaker) fun s hs => ?_
      refine holds_bind (hs.insert _ trivial) fun s hs => ?_
      refine holds_ok ⟨?_, hrest⟩
      unfold prologue
      rw [filled_append, filled_cons, filled_cons, filled_nil]
      exact hs
  | level level => exact LoggerImpl.create_ok hctx ..
  | toAbort toAbort errno => exact LoggerImpl.create_ok hctx ..

end Logger

-- =========================================================== the trailer

/-- What `finish` inserts in front of the newline. -/
def trailerItems (file : SourceFile) (line : Int32) : List Item :=
  [.chars (literal " - "), file.item, .char 58, .int line]

/-- The newline of `finish`. -/
def newline : Item := .char 10

section Levels

variable (content : List UInt8) {item : Item}

/-- How a text changes the level of the buffer. -/
theorem length_fill_text (hnumeric : item.numeric = false) (hitem : item.Ok) :
    item.size < kSmallBuffer - content.length
        ∧ (item.fill kSmallBuffer content).length = content.length + item.size
      ∨ ¬ item.size < kSmallBuffer - content.length
        ∧ (item.fill kSmallBuffer content).length = content.length := by
  by_cases hfits : item.Fits (kSmallBuffer - content.length)
  · left
    refine ⟨(Item.fits_of_text hnumeric).1 hfits, ?_⟩
    have hwhole := length_render (by decide) hitem (Nat.sub_le ..) hfits
    rw [Item.fill_of_fits hfits, List.length_append, hwhole]
  · right
    refine ⟨(Item.fits_of_text hnumeric).not.1 hfits, ?_⟩
    rw [Item.fill_of_not_fits hfits]

/-- How an `int` does. -/
theorem length_fill_int (v : Int32) :
    kMaxNumericSize ≤ kSmallBuffer - content.length
        ∧ ((Item.int v).fill kSmallBuffer content).length
          ≤ content.length + 20
      ∨ ¬ kMaxNumericSize ≤ kSmallBuffer - content.length
        ∧ ((Item.int v).fill kSmallBuffer content).length
          = content.length := by
  by_cases hfits : (Item.int v).Fits (kSmallBuffer - content.length)
  · left
    refine ⟨(Item.fits_of_numeric rfl).1 hfits, ?_⟩
    have hlow := v.le_toInt
    have hhigh := v.toInt_lt
    have hlen : (Item.int v).render.length ≤ 20 := by
      show (ascii (decimal v.toInt)).length ≤ 20
      rw [length_ascii]
      exact length_decimal ⟨by omega, by omega⟩
    rw [Item.fill_of_fits hfits, List.length_append]
    omega
  · right
    refine ⟨(Item.fits_of_numeric rfl).not.1 hfits, ?_⟩
    rw [Item.fill_of_not_fits hfits]

end Levels

/-- The levels `n` at which the newline has room, for a name of `k`
bytes. -/
def NewlineFits (n k : Nat) : Prop :=
  n + 6 ≤ kSmallBuffer ∧ n + k + 5 ≠ kSmallBuffer ∧ n + k + 4 ≠ kSmallBuffer
    ∨ n + 3 = kSmallBuffer ∧ k ≠ 1 ∧ k ≠ 2

instance (n k : Nat) : Decidable (NewlineFits n k) :=
  inferInstanceAs (Decidable (_ ∨ _))

theorem newline_fits_iff {content : List UInt8} {file : SourceFile}
    (line : Int32) (hfile : file.item.Ok)
    (hroom : content.length < kSmallBuffer) :
    newline.Fits (kSmallBuffer
        - (filled content (trailerItems file line)).length)
      ↔ NewlineFits content.length (castSize file.size) := by
  have hdash : (Item.chars (literal " - ")).size = 3 := by decide
  have hdash_ok : (Item.chars (literal " - ")).Ok := by decide
  unfold trailerItems
  rw [filled_cons, filled_cons, filled_cons, filled_cons, filled_nil,
    Item.fits_of_text rfl]
  have h1 := length_fill_text content rfl hdash_ok
  rw [hdash] at h1
  generalize (Item.chars (literal " - ")).fill kSmallBuffer content = c1 at *
  have h2 := length_fill_text c1 rfl hfile
  have hname : file.item.size = castSize file.size := rfl
  rw [hname] at h2
  generalize file.item.fill kSmallBuffer c1 = c2 at *
  have hcolon : (Item.char 58).size = 1 := rfl
  have hcolon_ok : (Item.char 58).Ok := trivial
  have h3 := length_fill_text c2 rfl hcolon_ok
  rw [hcolon] at h3
  generalize (Item.char 58).fill kSmallBuffer c2 = c3 at *
  have h4 := length_fill_int c3 line
  generalize (Item.int line).fill kSmallBuffer c3 = c4 at *
  have hlast : newline.size = 1 := rfl
  have hsize : kSmallBuffer = 4000 := rfl
  have hmax : kMaxNumericSize = 32 := rfl
  -- the colon needs a byte, and the line number is no trouble
  have hend : 1 < kSmallBuffer - c4.length ↔ c2.length + 3 ≤ kSmallBuffer := by
    omega
  clear h3 h4
  unfold NewlineFits
  rw [hlast, hend]
  omega

namespace LoggerImpl

/-- The record ends with the newline that `finish` writes. -/
def Terminated (impl : LoggerImpl) (out : Logger.Output) : Prop :=
  ∃ s, impl.trailer = .ok s ∧ out.msg = s.content ++ newline.render

variable {impl : LoggerImpl} {content : List UInt8}
  (hs : Fills content impl.stream) (hfile : impl.basename.item.Ok)
include hs hfile

theorem trailer_ok :
    Holds impl.trailer
      (Fills (filled content (trailerItems impl.basename impl.line))) := by
  have hdash : (Item.chars (literal " - ")).Ok := by decide
  unfold trailer trailerItems
  rw [filled_cons, filled_cons, filled_cons, filled_cons, filled_nil]
  refine holds_bind (hs.insert _ hdash) fun s hs => ?_
  refine holds_bind (hs.insert _ hfile) fun s hs => ?_
  refine holds_bind (hs.insert _ trivial) fun s hs => ?_
  exact hs.insert _ trivial

/-- The destructor hands over the content. -/
theorem destroy_ok :
    Holds (Logger.destroy impl) fun out =>
      out.msg = newline.fill kSmallBuffer
        (filled content (trailerItems impl.basename impl.line)) := by
  have hint : kSmallBuffer < intMod := by decide
  have hfinish : Holds impl.finish (Fills (newline.fill kSmallBuffer
      (filled content (trailerItems impl.basename impl.line)))) := by
    refine holds_bind (trailer_ok hs hfile) fun s hs => ?_
    exact hs.insert newline trivial
  refine holds_bind hfinish fun s hs => ?_
  obtain ⟨hgood, hcontent⟩ := hs
  obtain ⟨hlen, hcur⟩ := hgood
  have hlength : s.length = s.cur := Good.length_eq hint ⟨hlen, hcur⟩
  rw [hlength]
  refine holds_require ⟨by omega, by omega⟩ (holds_ok ?_)
  exact hcontent

theorem terminated_iff {out : Logger.Output}
    (hout : Logger.destroy impl = .ok out) :
    impl.Terminated out
      ↔ NewlineFits content.length (castSize impl.basename.size) := by
  obtain ⟨s, hs', hgood, hcontent⟩ := trailer_ok hs hfile
  have hmsg := (destroy_ok hs hfile).of_ok hout
  have hlevel : content.length < kSmallBuffer := by
    rw [← hs.2, hs.1.length_content]
    exact hs.1.2
  rw [← newline_fits_iff impl.line hfile hlevel]
  constructor
  · rintro ⟨t, ht, hend⟩
    rw [hs'] at ht
    cases ht
    by_contra hno
    rw [hmsg, Item.fill_of_not_fits hno, hcontent] at hend
    have hlen := congrArg List.length hend
    rw [List.length_append] at hlen
    have hone : newline.render.length = 1 := rfl
    omega
  · intro hfits
    refine ⟨s, hs', ?_⟩
    rw [hmsg, Item.fill_of_fits hfits, hcontent]

end LoggerImpl

-- ============================================================ the results

namespace LogStatement

/-- A statement runs up to the destructor. -/
theorem eval_ok {ctx : LogContext} (hctx : ctx.Ok) {stmt : LogStatement}
    (h : stmt.Ok) :
    ∃ file impl, stmt.source.file = .ok file ∧ stmt.eval ctx = .ok impl
      ∧ impl.basename = file ∧ file.item.Ok ∧ impl.line = stmt.line
      ∧ Fills (filled [] (Logger.prologue ctx stmt.maker ++ stmt.items))
        impl.stream := by
  obtain ⟨file, hfile, hok⟩ := SourceFile.file_ok h.source
  obtain ⟨impl, himpl, hfills, hline, hbase⟩ :=
    Logger.create_ok hctx file stmt.line h.maker
  obtain ⟨s, hrun, hs⟩ := hfills.run h.items
  refine ⟨file, { impl with stream := s }, hfile, ?_, hbase, hok, hline, ?_⟩
  · unfold eval
    rw [hfile, ok_bind, himpl, ok_bind, hrun, ok_bind]
  · rw [filled_append]
    exact hs

/-- When the record of a statement ends with the newline of `finish`: at
any level with six bytes left, unless the name ends one or two bytes in
front of the last one, and at three bytes left, unless the name has one
or two bytes. -/
theorem record_terminated_iff (ctx : LogContext) (hctx : ctx.Ok)
    (stmt : LogStatement) (hstmt : stmt.Ok) :
    ∃ file impl out, stmt.source.file = .ok file
      ∧ stmt.eval ctx = .ok impl ∧ stmt.record ctx = .ok out
      ∧ (impl.Terminated out
        ↔ NewlineFits impl.stream.content.length (castSize file.size)) := by
  obtain ⟨file, impl, hfile, heval, rfl, hok, -, hfills⟩ := eval_ok hctx hstmt
  obtain ⟨out, hout, -⟩ := LoggerImpl.destroy_ok hfills hok
  refine ⟨impl.basename, impl, out, hfile, heval, ?_, ?_⟩
  · unfold record
    rw [heval, ok_bind, hout]
  · rw [hfills.2]
    exact LoggerImpl.terminated_iff hfills hok hout

/-- A header of 38 bytes. -/
def noon : LogContext where
  mem := List.replicate kSmallBuffer 0
  time := literal "20140608 12:00:00"
  micros := ascii ".000000Z ".toList
  tidString := literal "12345 "
  strerror := fun _ => literal "Success"

theorem noon_ok : noon.Ok where
  mem := List.length_replicate ..
  time := by decide
  micros := by decide
  tidString := by decide
  strerror := fun _ => (by decide : 0 ∈ literal "Success")

/-- `LOG_INFO << string(n, 'x')` in `src/a.cc`. -/
def infoOf (n : Nat) : LogStatement where
  source := .array (literal "src/a.cc")
  line := 7
  maker := .plain
  items := [.string (List.replicate n 120)]

theorem infoOf_ok (n : Nat) : (infoOf n).Ok where
  source := by
    show 0 ∈ literal "src/a.cc" ∧ (literal "src/a.cc").length < intMod
    decide
  maker := trivial
  items := by
    intro item h
    rw [List.mem_singleton.1 h]
    trivial

theorem record_terminated_iff_short :
    noon.Ok ∧ (infoOf 3).Ok
      ∧ ∃ file impl out, (infoOf 3).source.file = .ok file
        ∧ (infoOf 3).eval noon = .ok impl ∧ (infoOf 3).record noon = .ok out
        ∧ (impl.Terminated out
          ↔ NewlineFits impl.stream.content.length (castSize file.size)) :=
  ⟨noon_ok, infoOf_ok 3, record_terminated_iff noon noon_ok _ (infoOf_ok 3)⟩

/-- The level that the statement leaves. -/
theorem length_infoOf {n : Nat} (h : n < 3962) :
    (filled [] (Logger.prologue noon (infoOf n).maker
      ++ (infoOf n).items)).length = 38 + n := by
  have hheader : (filled [] (Logger.prologue noon .plain)).length = 38 := by
    decide +kernel
  have hitem : (Item.string (List.replicate n 120)).Ok := trivial
  have hsize : (Item.string (List.replicate n 120)).size = n :=
    List.length_replicate ..
  have hfill := length_fill_text (filled [] (Logger.prologue noon .plain))
    rfl hitem
  have hmax : kSmallBuffer = 4000 := rfl
  rw [hsize, hheader] at hfill
  show (filled [] (Logger.prologue noon .plain
    ++ [.string (List.replicate n 120)])).length = 38 + n
  rw [filled_append, filled_cons, filled_nil]
  omega

/-- With five bytes left and a name of four, the last of them goes to the
colon. -/
theorem trailer_of_five {content : List UInt8} {file : SourceFile}
    (line : Int32) (hlevel : content.length = 3995)
    (hname : castSize file.size = 4) :
    newline.fill kSmallBuffer (filled content (trailerItems file line))
      = content ++ (Item.chars (literal " - ")).render ++ [58] := by
  have hmax : kSmallBuffer = 4000 := rfl
  have hnumeric : kMaxNumericSize = 32 := rfl
  have hdash : (Item.chars (literal " - ")).size = 3 := by decide
  have hsize : file.item.size = 4 := hname
  have hcolon : (Item.char 58).size = 1 := rfl
  have hlast : newline.size = 1 := rfl
  let dashed := content ++ (Item.chars (literal " - ")).render
  let closed := dashed ++ [58]
  have hdashed : dashed.length = 3998 := by
    rw [List.length_append, hlevel]
    exact congrArg (3995 + ·) hdash
  have hclosed : closed.length = 3999 := by
    rw [List.length_append, hdashed, List.length_singleton]
  have hfill1 : (Item.chars (literal " - ")).fill kSmallBuffer content
      = dashed := Item.fill_text rfl (by omega)
  have hfill2 : file.item.fill kSmallBuffer dashed = dashed :=
    Item.fill_text_full rfl (by omega)
  have hfill3 : (Item.char 58).fill kSmallBuffer dashed = closed :=
    Item.fill_text rfl (by omega)
  have hfill4 : (Item.int line).fill kSmallBuffer closed = closed :=
    Item.fill_numeric_full rfl (by omega)
  have hfill5 : newline.fill kSmallBuffer closed = closed :=
    Item.fill_text_full rfl (by omega)
  unfold trailerItems
  rw [filled_cons, filled_cons, filled_cons, filled_cons, filled_nil,
    hfill1, hfill2, hfill3, hfill4, hfill5]

/-- Five bytes left, and a name of four: the record ends with `':'`. -/
theorem record_without_newline :
    ∃ impl out, (infoOf 3957).eval noon = .ok impl
      ∧ (infoOf 3957).record noon = .ok out ∧ ¬ impl.Terminated out
      ∧ out.msg.getLast? = some 58 := by
  obtain ⟨file, impl, hfile, heval, rfl, hok, hline, hfills⟩ :=
    eval_ok noon_ok (infoOf_ok 3957)
  have hname : castSize impl.basename.size = 4 := by
    have hfile' : (infoOf 3957).source.file = .ok ⟨literal "a.cc", 4⟩ := by
      decide +kernel
    rw [hfile] at hfile'
    rw [Except.ok.inj hfile']
    decide
  have hlevel := length_infoOf (show 3957 < 3962 by decide)
  obtain ⟨out, hout, hmsg⟩ := LoggerImpl.destroy_ok hfills hok
  refine ⟨impl, out, heval, ?_, ?_, ?_⟩
  · unfold record
    rw [heval, ok_bind, hout]
  · rw [LoggerImpl.terminated_iff hfills hok hout, hlevel, hname]
    decide
  · rw [hmsg, trailer_of_five impl.line hlevel hname]
    exact List.getLast?_concat

end LogStatement

end Cobra
