/-
`LogFile` (base/LogFile.cc): lines go to a file, and from time to time
to a new one.

# Shape

A file keeps the second it was opened at and what was written to it;
`closed` has the files before the current one. `file_` is `NULL` until
`rollFile` has opened a file for the first time, and using it then is an
`.error`. That `fopen` fails is not modelled.

# The clock

`::time(NULL)` is read in `append_unlocked`, when it looks at the period,
and in `getLogFileName`. An `append` carries both readings, beside the
second at which it was called; a reading that is not made is not used.
Seconds are integers, and `/` is that of C, which rounds towards zero.

# Names

The name of a file has its second in digits, as `gmtime_r` and `strftime`
write it. Only files opened after the epoch exist, so that the calendar
starts there; years that do not fit into `struct tm` are not modelled.
-/
import Cobra.Endpoint
import Cobra.Lib.Calendar
import Cobra.Lib.Machine

namespace Cobra

open Machine Calendar

/-- Where `LogFile` stops. -/
inductive LogFileAssert
  /-- `assert(basename.find('/') == string::npos)` -/
  | basename
  /-- `file_` is `NULL` -/
  | nullFile
  deriving Repr, DecidableEq

def kCheckTimeRoll : Nat := 1024

def kRollPerSeconds : Int := 60 * 60 * 24

-- ============================================================ the names

/-- The parts of a name that do not change. -/
structure LogName where
  basename : List Char
  hostname : List Char
  pid : BitVec 32
  deriving Repr, DecidableEq

/-- `strftime` with `".%Y%m%d-%H%M%S."`, `n` seconds after the epoch. -/
def timeStamp (n : Nat) : List Char :=
  let date := dateOf (n / 86400)
  let second := n % 86400
  '.' :: (formatU date.year ++ (twoDigits date.month ++ twoDigits date.day
    ++ '-' :: (twoDigits (second / 3600) ++ twoDigits (second % 3600 / 60)
      ++ twoDigits (second % 60) ++ ['.'])))

/-- `getLogFileName`, for the second that it has read. -/
def getLogFileName (name : LogName) (now : Int) : List Char :=
  name.basename ++ (timeStamp now.toNat
    ++ (name.hostname ++ snprintf 32 ('.' :: formatD name.pid)
      ++ ['.', 'l', 'o', 'g']))

example : getLogFileName ⟨['a'], ['h'], 7⟩ 5097600
    = "a.19700301-000000.h.7.log".toList := by decide +kernel

-- ========================================================== the files

/-- `LogFile::File`. -/
structure OpenFile where
  name : List Char
  openedAt : Int
  content : List UInt8
  writtenBytes : Nat
  deriving Repr, DecidableEq

/-- The loop of `File::append`: `n` bytes of `len` are written, and `ws`
is what `fwrite_unlocked` returns. -/
def retryWrites (len : Nat) : Nat → List Nat → Nat
  | n, [] => n
  | n, x :: ws =>
      if len - n = 0 then n
      else if x = 0 then n
      else retryWrites len (n + min x (len - n)) ws

/-- How much of `len` bytes `File::append` writes. -/
def writtenOf (len : Nat) : List Nat → Nat
  | [] => 0
  | x :: ws => retryWrites len (min x len) ws

/-- `File::append`. -/
def OpenFile.append (f : OpenFile) (logline : List UInt8) (ws : List Nat) :
    OpenFile :=
  { f with
    content := f.content ++ logline.take (writtenOf logline.length ws)
    writtenBytes := f.writtenBytes + logline.length }

-- ============================================================ the state

/-- A line: when it was appended, and when its file was opened. -/
structure LineRecord where
  called : Int
  openedAt : Int
  deriving Repr, DecidableEq

structure LogFile where
  name : LogName
  rollSize : Nat
  flushInterval : Int
  count : Nat
  startOfPeriod : Int
  lastRoll : Int
  lastFlush : Int
  file : Option OpenFile
  closed : List OpenFile
  records : List LineRecord
  deriving Repr, DecidableEq

/-- A call of `append`, with the answers of the clock and of `fwrite`. -/
structure LogAppend where
  logline : List UInt8
  writes : List Nat
  /-- the second of the call -/
  called : Int
  /-- read in `append_unlocked` -/
  now : Int
  /-- read in `getLogFileName` -/
  rollNow : Int
  deriving Repr, DecidableEq

namespace LogFile

/-- The start of the period that a second is in. -/
def periodOf (now : Int) : Int :=
  Int.tdiv now kRollPerSeconds * kRollPerSeconds

def rollFile (s : LogFile) (now : Int) : LogFile :=
  if s.lastRoll < now then
    { s with
      lastRoll := now
      lastFlush := now
      startOfPeriod := periodOf now
      closed := s.closed ++ s.file.toList
      file := some ⟨getLogFileName s.name now, now, [], 0⟩ }
  else s

/-- The constructor; `now` is read in `getLogFileName`. -/
def create (name : LogName) (rollSize : Nat) (flushInterval : Int)
    (now : Int) : Except LogFileAssert LogFile := do
  require ('/' ∉ name.basename) .basename
  .ok (rollFile
    { name := name, rollSize := rollSize, flushInterval := flushInterval
      count := 0, startOfPeriod := 0, lastRoll := 0, lastFlush := 0
      file := none, closed := [], records := [] } now)

/-- What `append_unlocked` does when the line is written. -/
def afterWrite (s : LogFile) (written : Nat) (a : LogAppend) : LogFile :=
  if s.rollSize < written then s.rollFile a.rollNow
  else if kCheckTimeRoll < s.count then
    let s := { s with count := 0 }
    if periodOf a.now ≠ s.startOfPeriod then s.rollFile a.rollNow
    else if s.flushInterval < a.now - s.lastFlush then
      { s with lastFlush := a.now }
    else s
  else { s with count := s.count + 1 }

/-- `append_unlocked`. -/
def append (s : LogFile) (a : LogAppend) : Except LogFileAssert LogFile :=
  match s.file with
  | none => .error .nullFile
  | some f =>
      let f := f.append a.logline a.writes
      let s : LogFile := { s with
        file := some f
        records := s.records ++ [⟨a.called, f.openedAt⟩] }
      .ok (s.afterWrite f.writtenBytes a)

-- ==================================================== what is promised

/-- The files in the order they were opened. -/
def files (s : LogFile) : List OpenFile := s.closed ++ s.file.toList

/-- `fwrite_unlocked` writes everything over its retries. -/
def FullWrite (a : LogAppend) : Prop :=
  writtenOf a.logline.length a.writes = a.logline.length

instance (a : LogAppend) : Decidable (FullWrite a) :=
  inferInstanceAs (Decidable (_ = _))

/-- The day, counted from the epoch. -/
def dayOf (t : Int) : Int := t / kRollPerSeconds

/-- The lines appended on the day that went to a file of an earlier
one. -/
def lateLines (s : LogFile) (day : Int) : List LineRecord :=
  s.records.filter fun r =>
    decide (dayOf r.called = day) && decide (dayOf r.openedAt < day)

/-- A clock that never goes back, from `t` on. -/
def Clocked : Int → List LogAppend → Prop
  | _, [] => True
  | t, a :: as =>
      t ≤ a.called ∧ a.called ≤ a.now ∧ a.now ≤ a.rollNow ∧ Clocked a.rollNow as

/-- What rolling promises of the calls `as` of `append` on a `LogFile`
constructed at the second `now`. -/
structure KeepsLines (s₀ : LogFile) (now : Int) (as : List LogAppend)
    (s : LogFile) : Prop where
  reached : run append s₀ as = .ok s
  content : s.files.flatMap (·.content) = as.flatMap (·.logline)
  increasing : (s.files.map (·.openedAt)).Pairwise (· < ·)
  names : (s.files.map (·.name)).Nodup
  /-- an `append` at a second after the current file's opening -/
  bounded : ∀ pre a post t t' f f', as = pre ++ a :: post →
    run append s₀ pre = .ok t → t.append a = .ok t' →
      t.file = some f → f.openedAt < a.rollNow → t'.file = some f' →
        f'.writtenBytes ≤ s₀.rollSize
  late : Clocked now as → ∀ day, (s.lateLines day).length ≤ 1026

end LogFile

end Cobra
