/-
`Logger` (base/Logging.h, Logging.cc): a log statement makes a `Logger`,
inserts into its stream, and at the end of the statement the destructor
hands the record to `g_output`.

# What a statement is given

`LogContext` is what the constructor finds: the memory of the stream, the
texts of the time (`t_time`, from this call or from an earlier one in the
same second), of the microseconds and of the thread id, and the texts of
`strerror_r`. The text of the time is checked by the assertion of `T`,
whoever wrote it.

# What is left out

The level below which the macros make no `Logger` at all, and what
`g_output` and `g_flush` do with a record.
-/
import Cobra.LogStream

namespace Cobra

open Machine Detail

-- ============================================================ the file

/-- `strrchr`: the last place of the character in front of the zero. -/
def strrchr (mem : List UInt8) (c : UInt8) :
    Except StreamFault (Option Nat) := do
  let len ← strlen mem
  let text := mem.take len
  if c ∈ text then .ok (some (len - 1 - text.reverse.idxOf c))
  else .ok none

/-- `Logger::SourceFile`: the memory from `data_` on, and `size_`. -/
structure SourceFile where
  data : List UInt8
  size : Int
  deriving Repr, DecidableEq

namespace SourceFile

/-- `SourceFile(const char (&arr)[N])`; `N` is the length of the array. -/
def ofArray (arr : List UInt8) : Except StreamFault SourceFile := do
  let slash ← strrchr arr 47
  match slash with
  | some i =>
      .ok { data := arr.drop (i + 1), size := arr.length - 1 - (i + 1) }
  | none => .ok { data := arr, size := arr.length - 1 }

/-- `SourceFile(const char* filename)`. -/
def ofFilename (filename : List UInt8) : Except StreamFault SourceFile := do
  let slash ← strrchr filename 47
  let data := match slash with
    | some i => filename.drop (i + 1)
    | none => filename
  let len ← strlen data
  .ok { data := data, size := castInt len }

end SourceFile

/-- What a `SourceFile` is made of: `__FILE__`, or a pointer. -/
inductive Source
  | array (arr : List UInt8)
  | filename (name : List UInt8)
  deriving Repr, DecidableEq

def Source.file : Source → Except StreamFault SourceFile
  | .array arr => SourceFile.ofArray arr
  | .filename name => SourceFile.ofFilename name

-- ========================================================== the streams

inductive LogLevel
  | trace
  | debug
  | info
  | warn
  | error
  | fatal
  deriving Repr, DecidableEq

/-- `LogLevelName`. -/
def LogLevel.name : LogLevel → String
  | .trace => "TRACE "
  | .debug => "DEBUG "
  | .info => "INFO  "
  | .warn => "WARN  "
  | .error => "ERROR "
  | .fatal => "FATAL "

/-- The helper class `T`: a text whose length is known. -/
structure KnownText where
  str : List UInt8
  len : Nat
  deriving Repr, DecidableEq

/-- `T(const char* str, unsigned len)`. -/
def KnownText.create (str : List UInt8) (len : Nat) :
    Except StreamFault KnownText := do
  let n ← strlen str
  require (n = len) .knownLength
  .ok ⟨str, len⟩

namespace LogStream

/-- `operator<<(LogStream& s, T v)`. -/
def insertKnown (s : LogStream) (v : KnownText) :
    Except StreamFault LogStream :=
  s.appendInt v.str (castInt v.len)

/-- `operator<<(LogStream& s, const Logger::SourceFile& v)`. -/
def insertSourceFile (s : LogStream) (v : SourceFile) :
    Except StreamFault LogStream :=
  s.appendInt v.data v.size

end LogStream

-- =========================================================== the logger

/-- What a `Logger` is made in. -/
structure LogContext where
  /-- the memory of the stream -/
  mem : List UInt8
  /-- `t_time` -/
  time : List UInt8
  /-- the text of `".%06dZ "` -/
  micros : List UInt8
  /-- `CurrentThread::tidString()` -/
  tidString : List UInt8
  /-- `strerror_tl` -/
  strerror : Int32 → List UInt8

/-- `Logger::Impl`. -/
structure LoggerImpl where
  stream : LogStream
  level : LogLevel
  line : Int32
  basename : SourceFile
  deriving Repr, DecidableEq

namespace LoggerImpl

/-- `formatTime`, once `t_time` has been brought up to date. -/
def formatTime (ctx : LogContext) (s : LogStream) :
    Except StreamFault LogStream := do
  let us ← Fmt.create ctx.micros
  require (us.length = 9) .microsLength
  let time ← KnownText.create ctx.time 17
  let micros ← KnownText.create (us.data ++ [0]) 9
  let s ← s.insertKnown time
  s.insertKnown micros

/-- `if (savedErrno != 0) { .. }` of the constructor. -/
def insertErrno (ctx : LogContext) (s : LogStream) (savedErrno : Int32) :
    Except StreamFault LogStream :=
  if savedErrno ≠ 0 then do
    let s ← s.insert (.chars (ctx.strerror savedErrno))
    let s ← s.insert (.chars (literal " (errno="))
    let s ← s.insert (.int savedErrno)
    s.insert (.chars (literal ") "))
  else .ok s

/-- The constructor. -/
def create (ctx : LogContext) (level : LogLevel) (savedErrno : Int32)
    (file : SourceFile) (line : Int32) : Except StreamFault LoggerImpl := do
  let s ← formatTime ctx (.new ctx.mem)
  let tid ← KnownText.create ctx.tidString 6
  let s ← s.insertKnown tid
  let name ← KnownText.create (literal level.name) 6
  let s ← s.insertKnown name
  let s ← insertErrno ctx s savedErrno
  .ok { stream := s, level := level, line := line, basename := file }

/-- `finish` up to the line number. -/
def trailer (impl : LoggerImpl) : Except StreamFault LogStream := do
  let s ← impl.stream.insert (.chars (literal " - "))
  let s ← s.insertSourceFile impl.basename
  let s ← s.insert (.char 58)
  s.insert (.int impl.line)

def finish (impl : LoggerImpl) : Except StreamFault LogStream := do
  let s ← impl.trailer
  s.insert (.char 10)

end LoggerImpl

/-- The constructors of `Logger`, with the `errno` that the last one
finds. -/
inductive LoggerMaker
  | plain
  | levelFunc (level : LogLevel) (func : List UInt8)
  | level (level : LogLevel)
  | toAbort (toAbort : Bool) (errno : Int32)
  deriving Repr, DecidableEq

namespace Logger

/-- `Logger(SourceFile file, int line, ..)`. -/
def create (ctx : LogContext) (file : SourceFile) (line : Int32) :
    LoggerMaker → Except StreamFault LoggerImpl
  | .plain => LoggerImpl.create ctx .info 0 file line
  | .levelFunc level func => do
      let impl ← LoggerImpl.create ctx level 0 file line
      let s ← impl.stream.insert (.chars func)
      let s ← s.insert (.char 32)
      .ok { impl with stream := s }
  | .level level => LoggerImpl.create ctx level 0 file line
  | .toAbort toAbort errno =>
      LoggerImpl.create ctx (if toAbort then .fatal else .error) errno file line

/-- What the destructor hands to `g_output`, and whether it aborts. -/
structure Output where
  msg : List UInt8
  aborts : Bool
  deriving Repr, DecidableEq

/-- `~Logger`. -/
def destroy (impl : LoggerImpl) : Except StreamFault Output := do
  let s ← impl.finish
  require (0 ≤ s.length ∧ s.length ≤ s.data.length) .outOfBounds
  .ok { msg := s.data.take s.length.toNat
        aborts := decide (impl.level = .fatal) }

end Logger

/-- A log statement: the constructor of the macro, where it stands, and
what is inserted. -/
structure LogStatement where
  source : Source
  line : Int32
  maker : LoggerMaker
  items : List Item

namespace LogStatement

/-- The statement up to the destructor. -/
def eval (ctx : LogContext) (stmt : LogStatement) :
    Except StreamFault LoggerImpl := do
  let file ← stmt.source.file
  let impl ← Logger.create ctx file stmt.line stmt.maker
  let s ← run StreamCall.step impl.stream (stmt.items.map .insert)
  .ok { impl with stream := s }

/-- The record of the whole statement. -/
def record (ctx : LogContext) (stmt : LogStatement) :
    Except StreamFault Logger.Output := do
  let impl ← stmt.eval ctx
  Logger.destroy impl

end LogStatement

end Cobra
