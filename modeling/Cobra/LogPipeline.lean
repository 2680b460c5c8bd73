/-
The back-end of `AsyncLogging` with its `LogFile` (base/AsyncLogging.cc,
`threadFunc`): `output` is made where the latch is counted down, and every
buffer and every notice handed over is one `append` to it.

A step of the back-end carries the answers of the clock and of `fwrite`
that its call of `output.append` meets, if it makes one. The flushes
change nothing that is in a file.
-/
import Cobra.AsyncLogging
import Cobra.LogFile

namespace Cobra

open Machine

/-- What the calls of one step find: what `fwrite` returns, and the
clock. -/
structure LogEnv where
  writes : List Nat
  called : Int
  now : Int
  rollNow : Int
  deriving Repr, DecidableEq

/-- What `output` is made with. `AsyncLogging` keeps its `flushInterval`
for its own wait. -/
structure LogConfig where
  name : LogName
  rollSize : Nat
  deriving Repr, DecidableEq

/-- The default of the constructor of `LogFile`. -/
def LogFile.kFlushInterval : Int := 3

inductive PipelineAssert
  | async (a : AsyncAssert)
  | file (a : LogFileAssert)
  /-- `output` is used before it is there -/
  | noOutput
  deriving Repr, DecidableEq

structure LogPipeline where
  async : AsyncLogging
  output : Option LogFile
  deriving Repr, DecidableEq

namespace LogPipeline

def create : LogPipeline := ⟨.create, none⟩

/-- The call of `LogFile::append` for a chunk. -/
def appendOf (env : LogEnv) (chunk : LogChunk) : LogAppend where
  logline := AsyncLogging.bytesOf chunk
  writes := env.writes
  called := env.called
  now := env.now
  rollNow := env.rollNow

/-- What the step hands over. -/
def newChunks (s s' : AsyncLogging) : List LogChunk :=
  s'.output.drop s.output.length

/-- The calls of `output.append` that a step makes. -/
def outputStep (s : LogPipeline) (async : AsyncLogging) (env : LogEnv) :
    Except PipelineAssert (Option LogFile) :=
  let chunks := newChunks s.async async
  match s.output with
  | none => do
      require (chunks = []) .noOutput
      .ok none
  | some f =>
      ((run LogFile.append f (chunks.map (appendOf env))).mapError .file).map
        some

def step (cfg : LogConfig) (s : LogPipeline) (a : AsyncAct × LogEnv) :
    Except PipelineAssert LogPipeline := do
  let async ← (s.async.step a.1).mapError .async
  if a.1 = .opened ∧ s.async.pc = .opening then do
    let f ← (LogFile.create cfg.name cfg.rollSize LogFile.kFlushInterval
      a.2.now).mapError .file
    .ok ⟨async, some f⟩
  else do
    let output ← s.outputStep async a.2
    .ok ⟨async, output⟩

-- ==================================================== what is promised

/-- What a step hands over. -/
def chunksOf (s : LogPipeline) (a : AsyncAct) : List LogChunk :=
  match s.async.step a with
  | .ok async => newChunks s.async async
  | .error _ => []

/-- The `LogFile` is made after the epoch, and `fwrite` writes everything
over its retries. -/
def FullStep (s : LogPipeline) (a : AsyncAct × LogEnv) : Prop :=
  (a.1 = .opened → 0 < a.2.now)
    ∧ ∀ chunk ∈ s.chunksOf a.1, LogFile.FullWrite (appendOf a.2 chunk)

instance (s : LogPipeline) (a : AsyncAct × LogEnv) :
    Decidable (FullStep s a) :=
  inferInstanceAs (Decidable (_ ∧ _))

/-- The lines appended by the actions of a run. -/
def linesOf (acts : List (AsyncAct × LogEnv)) : List (List UInt8) :=
  AsyncLogging.linesOf (acts.map Prod.fst)

end LogPipeline

/-- What is in a file: a notice or a line. -/
inductive LogPiece
  | notice (text : List UInt8)
  | line (logline : List UInt8)
  deriving Repr, DecidableEq

namespace LogPiece

def bytes : LogPiece → List UInt8
  | notice text => text
  | line logline => logline

/-- The lines among the pieces. -/
def lines (pieces : List LogPiece) : List (List UInt8) :=
  pieces.filterMap fun
    | .line logline => some logline
    | .notice _ => none

end LogPiece

end Cobra
