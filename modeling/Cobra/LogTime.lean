/-
The head of a record (base/Logging.cc, base/Thread.cc, base/timestamp.cpp):
a thread keeps the text of the second it has logged last in `t_time`, and
that of its id in `t_tidString`, and makes new ones only when it has to.

# Shape

The thread-local arrays are all zero when a thread starts. A step is the
constructor `Logger::Impl::Impl` of one log statement, with what the clock
shows; it finds the stream's memory in `LogCall`. `headers` has what the
constructors have inserted. `cacheTid` is done before the stream is
written, which makes no difference but for the assertion that fails first.

# The clock

A `Timestamp` is the number of microseconds since the epoch. A clock that
is set to a time before it is not modelled.
-/
import Cobra.Endpoint
import Cobra.Lib.Calendar
import Cobra.Logging

namespace Cobra

open Machine Detail Calendar

-- ============================================================ the texts

/-- `"%4d%02d%02d %02d:%02d:%02d"` of what `gmtime_r` makes of the second
`n`. The year has at least the four digits that it is padded to. -/
def secondText (n : Nat) : List Char :=
  let date := dateOf (n / 86400)
  let second := n % 86400
  formatU date.year ++ (twoDigits date.month ++ (twoDigits date.day
    ++ ' ' :: (twoDigits (second / 3600) ++ ':' ::
      (twoDigits (second % 3600 / 60) ++ ':' :: twoDigits (second % 60)))))

/-- `"%06d"` of a number of microseconds. -/
def sixDigits (n : Nat) : List Char :=
  twoDigits (n / 10000) ++ (twoDigits (n % 10000 / 100) ++ twoDigits (n % 100))

def microsPerSecond : Nat := 1000 * 1000

/-- The first second of the year 10000. -/
def secondsToYear10000 : Nat := 253402300800

/-- The first microsecond of the year 10000. -/
def microsToYear10000 : Nat := secondsToYear10000 * microsPerSecond

/-- `Timestamp::toFormattedString`. -/
def toFormattedString (microSecondsSinceEpoch : Nat) : List Char :=
  snprintf 32 (secondText (microSecondsSinceEpoch / microsPerSecond)
    ++ '.' :: sixDigits (microSecondsSinceEpoch % microsPerSecond))

example : toFormattedString 5097600000042 = "19700301 00:00:00.000042".toList := by
  decide +kernel

/-- `".%06dZ "`. -/
def microsText (n : Nat) : List Char := '.' :: sixDigits n ++ ['Z', ' ']

/-- `"%5d "`. -/
def tidText (tid : Nat) : List Char :=
  List.replicate (5 - (formatU tid).length) ' ' ++ formatU tid ++ [' ']

-- =========================================================== the thread

inductive LogThreadFault
  /-- `assert(len == 17)` of `formatTime` -/
  | timeLength
  /-- `assert(n == 6)` of `cacheTid` -/
  | tidLength
  | stream (f : StreamFault)
  deriving Repr, DecidableEq

/-- The thread-local variables, and what was inserted. -/
structure LogThread where
  /-- `t_time` -/
  time : List UInt8
  /-- `t_lastSecond` -/
  lastSecond : Nat
  /-- `t_cachedTid` -/
  cachedTid : Nat
  /-- `t_tidString` -/
  tidString : List UInt8
  headers : List (List UInt8)
  deriving Repr, DecidableEq

/-- A log statement: what the clock shows, the memory of its stream, what
`strerror_r` writes, and the arguments of the constructor. -/
structure LogCall where
  micros : Nat
  mem : List UInt8
  strerror : Int32 → List UInt8
  level : LogLevel
  savedErrno : Int32
  file : SourceFile
  line : Int32
  length_mem : mem.length = kSmallBuffer
  strerror_ends : ∀ errno, 0 ∈ strerror errno

namespace LogThread

def start : LogThread where
  time := List.replicate 32 0
  lastSecond := 0
  cachedTid := 0
  tidString := List.replicate 32 0
  headers := []

/-- The first half of `formatTime`. -/
def updateTime (s : LogThread) (micros : Nat) :
    Except LogThreadFault LogThread :=
  let seconds := micros / microsPerSecond
  if seconds ≠ s.lastSecond then do
    let (time, len) ←
      (snprintfTo s.time 0 32 (ascii (secondText seconds))).mapError .stream
    require (len = 17) .timeLength
    .ok { s with lastSecond := seconds, time := time }
  else .ok s

/-- `CurrentThread::tid`, with `cacheTid`. -/
def cacheTid (s : LogThread) (gettid : Nat) :
    Except LogThreadFault LogThread :=
  if s.cachedTid = 0 then do
    let (tidString, n) ←
      (snprintfTo s.tidString 0 32 (ascii (tidText gettid))).mapError .stream
    require (n = 6) .tidLength
    .ok { s with cachedTid := gettid, tidString := tidString }
  else .ok s

/-- What the constructor finds. -/
def context (s : LogThread) (c : LogCall) : LogContext where
  mem := c.mem
  time := s.time
  micros := ascii (microsText (c.micros % microsPerSecond))
  tidString := s.tidString
  strerror := c.strerror

/-- `Logger::Impl::Impl` on the thread `gettid`. -/
def step (gettid : Nat) (s : LogThread) (c : LogCall) :
    Except LogThreadFault LogThread := do
  let s ← s.updateTime c.micros
  let s ← s.cacheTid gettid
  let impl ← (LoggerImpl.create (s.context c) c.level c.savedErrno c.file
    c.line).mapError .stream
  .ok { s with headers := s.headers ++ [impl.stream.content] }

-- ==================================================== what is promised

/-- The head of the record: the time, the thread, and the level. -/
def headerOf (gettid : Nat) (c : LogCall) : List UInt8 :=
  ascii (toFormattedString c.micros ++ ['Z', ' '] ++ tidText gettid
    ++ c.level.name.toList)

/-- The thread's id has at most five digits, the years have four, and the
first statement is not in the first second of the epoch. -/
def Fits (gettid : Nat) (calls : List LogCall) : Prop :=
  (calls ≠ [] → gettid < 100000) ∧ (∀ c ∈ calls, c.micros < microsToYear10000)
    ∧ ∀ c, calls.head? = some c → microsPerSecond ≤ c.micros

end LogThread

end Cobra
