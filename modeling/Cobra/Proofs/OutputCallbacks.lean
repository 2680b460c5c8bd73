/-
When the output side of a connection queues its two callbacks.

# One account of a step

`Outcome` says everything a step can do to the output buffer and to the
calls of the two callbacks: nothing; complete, when the buffer is empty
afterwards and all bytes are taken; take some bytes and leave others; or
put bytes into the buffer. The write complete callback goes with the
second, the high water mark callback with the last.

# The two callbacks

`highWaterMarkCb_` is called once for each upward crossing of the mark
(`highWaterMarkCb_counts_crossings`). `writeCompleteCb_` is called only
when all bytes that were sent have been taken, and once by every step
that takes the last of them (`writeCompleteCb_sound_complete`).
-/
import Cobra.Proofs.TcpConnection

namespace Cobra

open Machine

-- ============================================================= the calls

/-- The sizes that `highWaterMarkCb_` was queued with. -/
def marks (obs : List ConnObs) : List Nat :=
  obs.filterMap fun
    | .highWaterMarkCb len => some len
    | _ => none

/-- How often `writeCompleteCb_` was queued. -/
def completes (obs : List ConnObs) : Nat := obs.count .writeCompleteCb

theorem marks_append (l l' : List ConnObs) :
    marks (l ++ l') = marks l ++ marks l' := List.filterMap_append ..

theorem completes_append (l l' : List ConnObs) :
    completes (l ++ l') = completes l + completes l' := List.count_append ..

namespace TcpConnection

variable {c c' : TcpConnection}

/-- `outputBuffer_.readableBytes()`. -/
def outputSize (c : TcpConnection) : Nat := c.outputBuffer.readableBytes

theorem outputSize_eq (c : TcpConnection) :
    c.outputSize = c.outputBuffer.content.length :=
  c.outputBuffer.length_content.symm

/-- What no step changes. -/
structure SameCallbacks (c c' : TcpConnection) : Prop where
  highWaterMark : c'.highWaterMark = c.highWaterMark
  highWaterMarkCb : c'.highWaterMarkCb = c.highWaterMarkCb
  writeCompleteCb : c'.writeCompleteCb = c.writeCompleteCb

theorem SameCallbacks.refl (c : TcpConnection) : SameCallbacks c c :=
  ⟨rfl, rfl, rfl⟩

theorem SameCallbacks.trans {c'' : TcpConnection} (h : SameCallbacks c c')
    (h' : SameCallbacks c' c'') : SameCallbacks c c'' :=
  ⟨h'.1.trans h.1, h'.2.trans h.2, h'.3.trans h.3⟩

/-- The call of `highWaterMarkCb_` for a buffer that gets larger. -/
def markCall (c : TcpConnection) (size : Nat) : List Nat :=
  if c.highWaterMark ≤ size ∧ c.outputSize < c.highWaterMark
      ∧ c.highWaterMarkCb then [size]
  else []

/-- The call of `writeCompleteCb_` when all is written. -/
def completeCall (c : TcpConnection) : Nat :=
  if c.writeCompleteCb then 1 else 0

/-- What a step that sends `data` does to the output buffer and to the
calls of the callbacks. -/
inductive Outcome (c : TcpConnection) (data : List UInt8) (fault : Prop)
    (c' : TcpConnection) : Prop
  /-- nothing to send, or the data is given up -/
  | nothing (why : data = [] ∨ fault)
      (content : c'.outputBuffer.content = c.outputBuffer.content)
      (marks : marks c'.obs = marks c.obs)
      (completes : completes c'.obs = completes c.obs)
  /-- all bytes are taken -/
  | complete (content : c'.outputBuffer.content = [])
      (marks : marks c'.obs = marks c.obs)
      (completes : completes c'.obs = completes c.obs + c.completeCall)
  /-- some bytes are taken -/
  | less (content : c'.outputBuffer.content ≠ [])
      (size : c'.outputSize ≤ c.outputSize)
      (marks : marks c'.obs = marks c.obs)
      (completes : completes c'.obs = completes c.obs)
  /-- bytes go into the buffer -/
  | buffered (rest : List UInt8) (some : rest ≠ [])
      (content : c'.outputBuffer.content = c.outputBuffer.content ++ rest)
      (marks : marks c'.obs = marks c.obs ++ c.markCall c'.outputSize)
      (completes : completes c'.obs = completes c.obs)

-- =============================================================== sending

theorem checkHighWaterMark_calls (c : TcpConnection) (remaining : Nat) :
    marks (c.checkHighWaterMark remaining).obs
        = marks c.obs ++ c.markCall (c.outputSize + remaining)
      ∧ completes (c.checkHighWaterMark remaining).obs = completes c.obs
      ∧ SameCallbacks c (c.checkHighWaterMark remaining) := by
  unfold checkHighWaterMark markCall outputSize
  simp only
  split
  · refine ⟨marks_append .., ?_, ⟨rfl, rfl, rfl⟩⟩
    exact (completes_append ..).trans (Nat.add_zero _)
  · exact ⟨(List.append_nil _).symm, rfl, .refl c⟩

theorem ensureWriting_calls (c : TcpConnection) :
    marks c.ensureWriting.obs = marks c.obs
      ∧ completes c.ensureWriting.obs = completes c.obs
      ∧ SameCallbacks c c.ensureWriting := by
  unfold ensureWriting
  split
  · refine ⟨(marks_append ..).trans (List.append_nil _), ?_, ⟨rfl, rfl, rfl⟩⟩
    exact (completes_append ..).trans (Nat.add_zero _)
  · exact ⟨rfl, rfl, .refl c⟩

/-- The end of `sendInLoop`. -/
theorem bufferRest_outcome (c : TcpConnection) (rest : List UInt8) :
    Holds (c.bufferRest rest) fun c' =>
      c'.outputBuffer.content = c.outputBuffer.content ++ rest
        ∧ marks c'.obs = marks c.obs ++ c.markCall c'.outputSize
        ∧ completes c'.obs = completes c.obs ∧ SameCallbacks c c' := by
  obtain ⟨hmarks, hcompletes, hsame⟩ := checkHighWaterMark_calls c rest.length
  obtain ⟨-, -, -, hout, -⟩ := checkHighWaterMark_frame c rest.length
  unfold bufferRest
  simp only
  refine holds_bind (holds_mapError (Buffer.append_ok ..)) fun out hcontent =>
    holds_ok ?_
  rw [hout] at hcontent
  obtain ⟨hmarks', hcompletes', hsame'⟩ := ensureWriting_calls
    { c.checkHighWaterMark rest.length with outputBuffer := out }
  obtain ⟨-, -, -, hout', -⟩ := ensureWriting_frame
    { c.checkHighWaterMark rest.length with outputBuffer := out }
  have hsize : (ensureWriting { c.checkHighWaterMark rest.length with
      outputBuffer := out }).outputSize = c.outputSize + rest.length := by
    rw [outputSize_eq, outputSize_eq, hout', hcontent, List.length_append]
  refine ⟨?_, ?_, hcompletes'.trans hcompletes, hsame'.1.trans hsame.1,
    hsame'.2.trans hsame.2, hsame'.3.trans hsame.3⟩
  · rw [hout', hcontent]
  · rw [hsize]
    exact hmarks'.trans hmarks

/-- What the direct write does to the calls: all bytes are taken and the
callback is called, or it is not called and some bytes are left, unless
there were none. -/
structure DirectCalls (c : TcpConnection) (data : List UInt8)
    (r : TcpConnection × Nat × Nat × Bool) : Prop where
  marks : marks r.1.obs = marks c.obs
  same : SameCallbacks c r.1
  completes : c.outputBuffer.content = [] ∧ r.2.2.1 = 0
      ∧ completes r.1.obs = completes c.obs + c.completeCall
    ∨ completes r.1.obs = completes c.obs ∧ (r.2.2.1 = 0 → data = [])

theorem writeDirectly_calls (c : TcpConnection) (data : List UInt8)
    (w : WriteResult) : DirectCalls c data (c.writeDirectly data w) := by
  have hstay : ∀ fault : Bool, DirectCalls c data (c, 0, data.length, fault) :=
    fun _ => ⟨rfl, .refl c, .inr ⟨rfl, List.eq_nil_of_length_eq_zero⟩⟩
  unfold writeDirectly
  split
  next hdirect =>
    rw [Bool.and_eq_true, beq_iff_eq] at hdirect
    have hempty := Buffer.content_eq_nil.2 hdirect.2
    cases w with
    | failed e => exact hstay _
    | wrote n =>
        simp only [WriteResult.on]
        have hmarks : marks (c.obs
            ++ [.accepted (data.take (min n data.length))]) = marks c.obs :=
          (marks_append ..).trans (List.append_nil _)
        have hcompletes : completes (c.obs
            ++ [.accepted (data.take (min n data.length))])
              = completes c.obs :=
          (completes_append ..).trans (Nat.add_zero _)
        split
        next hall =>
          rw [Bool.and_eq_true, beq_iff_eq] at hall
          refine ⟨?_, ⟨rfl, rfl, rfl⟩, .inl ⟨hempty, hall.1, ?_⟩⟩
          · exact ((marks_append ..).trans (List.append_nil _)).trans hmarks
          · have hcb : c.writeCompleteCb = true := hall.2
            refine (completes_append ..).trans ?_
            unfold completeCall
            rw [hcb]
            exact congrArg (· + 1) hcompletes
        next hnot =>
          refine ⟨hmarks, ⟨rfl, rfl, rfl⟩, ?_⟩
          by_cases hrest : data.length - min n data.length = 0
          · have hcb : c.writeCompleteCb = false := by
              rw [Bool.and_eq_true, beq_iff_eq, not_and, Bool.not_eq_true]
                at hnot
              exact hnot hrest
            refine .inl ⟨hempty, hrest, ?_⟩
            unfold completeCall
            rw [hcb]
            exact hcompletes
          · exact .inr ⟨hcompletes, fun hzero => absurd hzero hrest⟩
  next => exact hstay false

theorem sendInLoop_outcome (c : TcpConnection) (data : List UInt8)
    (w : WriteResult) :
    Holds (c.sendInLoop data w) fun c' =>
      Outcome c data (c.state = .kDisconnected ∨ ¬ w.NoFault) c'
        ∧ SameCallbacks c c' := by
  unfold sendInLoop
  split
  next hdown =>
    exact holds_ok ⟨.nothing (.inr (.inl (beq_iff_eq.1 hdown))) rfl rfl rfl,
      .refl c⟩
  next =>
    have hd := writeDirectly_direct c data w
    have hcalls := writeDirectly_calls c data w
    generalize c.writeDirectly data w = r at hd hcalls ⊢
    obtain ⟨c₁, nwrote, remaining, fault⟩ := r
    have hout : c₁.outputBuffer = c.outputBuffer := hd.outputBuffer
    have hsame : SameCallbacks c c₁ := hcalls.same
    simp only
    split
    next hgo =>
      rw [Bool.and_eq_true, decide_eq_true_eq] at hgo
      have hrem : remaining = (data.drop nwrote).length := hd.remaining
      have hcompletes : completes c₁.obs = completes c.obs := by
        obtain ⟨-, hzero, -⟩ | ⟨hnone, -⟩ := hcalls.completes
        · have hzero : remaining = 0 := hzero
          omega
        · exact hnone
      apply holds_mono (bufferRest_outcome c₁ (data.drop nwrote))
      rintro c' ⟨hcontent, hmarks, hcount, hsame'⟩
      refine ⟨.buffered (data.drop nwrote) ?_ ?_ ?_ (hcount.trans hcompletes),
        hsame.trans hsame'⟩
      · intro hnil
        rw [hnil, List.length_nil] at hrem
        omega
      · rw [hcontent, hout]
      · have hmark : c₁.markCall c'.outputSize = c.markCall c'.outputSize := by
          unfold markCall outputSize
          rw [hsame.highWaterMark, hsame.highWaterMarkCb, hout]
        rw [hmarks, hmark]
        exact congrArg (· ++ _) hcalls.marks
    next hstop =>
      refine holds_ok ⟨?_, hsame⟩
      have hcontent : c₁.outputBuffer.content = c.outputBuffer.content := by
        rw [hout]
      cases hfault : fault with
      | true =>
          have hgone := hd.fault hfault
          have hc : c₁ = c := hgone.2
          rw [hc]
          exact .nothing (.inr (.inr hgone.1)) rfl rfl rfl
      | false =>
          have hzero : remaining = 0 := by
            rw [hfault] at hstop
            simp only [Bool.not_false, Bool.true_and, decide_eq_true_eq]
              at hstop
            omega
          obtain ⟨hempty, -, hcount⟩ | ⟨hcount, hnone⟩ := hcalls.completes
          · exact .complete (hcontent.trans hempty) hcalls.marks hcount
          · exact .nothing (.inl (hnone hzero)) hcontent hcalls.marks hcount

-- =============================================================== writing

theorem shutdownInLoop_calls (c : TcpConnection) :
    marks c.shutdownInLoop.obs = marks c.obs
      ∧ completes c.shutdownInLoop.obs = completes c.obs
      ∧ SameCallbacks c c.shutdownInLoop
      ∧ c.shutdownInLoop.outputBuffer = c.outputBuffer := by
  unfold shutdownInLoop
  split
  · refine ⟨(marks_append ..).trans (List.append_nil _), ?_, ⟨rfl, rfl, rfl⟩,
      rfl⟩
    exact (completes_append ..).trans (Nat.add_zero _)
  · exact ⟨rfl, rfl, .refl c, rfl⟩

/-- The end of a `handleWrite` that has written everything. -/
theorem finishWrite_calls (c : TcpConnection) :
    marks c.finishWrite.obs = marks c.obs
      ∧ completes c.finishWrite.obs = completes c.obs + c.completeCall
      ∧ SameCallbacks c c.finishWrite := by
  have hmarks : marks (c.setChannel c.channel.disableWriting).obs
      = marks c.obs := (marks_append ..).trans (List.append_nil _)
  have hcompletes : completes (c.setChannel c.channel.disableWriting).obs
      = completes c.obs := (completes_append ..).trans (Nat.add_zero _)
  -- the callback is queued, or not
  obtain ⟨c₁, hc₁, hmarks₁, hcompletes₁, hsame₁⟩ : ∃ c₁,
      c₁ = (if c.writeCompleteCb then
        (c.setChannel c.channel.disableWriting).log .writeCompleteCb
        else c.setChannel c.channel.disableWriting)
      ∧ marks c₁.obs = marks c.obs
      ∧ completes c₁.obs = completes c.obs + c.completeCall
      ∧ SameCallbacks c c₁ := by
    unfold completeCall
    split
    · refine ⟨_, rfl, ?_, ?_, ⟨rfl, rfl, rfl⟩⟩
      · exact ((marks_append ..).trans (List.append_nil _)).trans hmarks
      · exact (completes_append ..).trans (congrArg (· + 1) hcompletes)
    · exact ⟨_, rfl, hmarks, hcompletes, ⟨rfl, rfl, rfl⟩⟩
  have heq : c.finishWrite
      = if c₁.state == .kDisconnecting then c₁.shutdownInLoop else c₁ := by
    rw [hc₁]
    rfl
  rw [heq]
  split
  · obtain ⟨hmarks₂, hcompletes₂, hsame₂, -⟩ := shutdownInLoop_calls c₁
    exact ⟨hmarks₂.trans hmarks₁, hcompletes₂.trans hcompletes₁,
      hsame₁.trans hsame₂⟩
  · exact ⟨hmarks₁, hcompletes₁, hsame₁⟩

theorem takeOutput_calls {n : Nat} (h : c.takeOutput n = .ok c') :
    marks c'.obs = marks c.obs ∧ completes c'.obs = completes c.obs
      ∧ SameCallbacks c c' := by
  unfold takeOutput at h
  obtain ⟨out, -, h⟩ := bind_ok_inv h
  cases h
  refine ⟨(marks_append ..).trans (List.append_nil _), ?_, ⟨rfl, rfl, rfl⟩⟩
  exact (completes_append ..).trans (Nat.add_zero _)

theorem handleWrite_outcome (c : TcpConnection) (w : WriteResult) :
    Holds (c.handleWrite w) fun c' =>
      Outcome c [] False c' ∧ SameCallbacks c c' := by
  have hstay : Outcome c [] False c ∧ SameCallbacks c c :=
    ⟨.nothing (.inl rfl) rfl rfl rfl, .refl c⟩
  unfold handleWrite
  split
  next =>
    cases w with
    | failed e => exact holds_ok hstay
    | wrote n =>
        simp only [WriteResult.on]
        split
        next =>
          obtain ⟨c₁, htake, htook⟩ := takeOutput_ok
            (Nat.min_le_right n c.outputBuffer.readableBytes)
          obtain ⟨hmarks, hcompletes, hsame⟩ := takeOutput_calls htake
          rw [htake, ok_bind]
          split
          next hempty =>
            rw [beq_iff_eq] at hempty
            obtain ⟨hmarks', hcompletes', hsame'⟩ := finishWrite_calls c₁
            obtain ⟨-, -, -, hout⟩ := finishWrite_frame c₁
            refine holds_ok ⟨.complete ?_ (hmarks'.trans hmarks) ?_,
              hsame.trans hsame'⟩
            · rw [hout]
              exact Buffer.content_eq_nil.2 hempty
            · rw [hcompletes', hcompletes]
              unfold completeCall
              rw [hsame.writeCompleteCb]
          next hmore =>
            rw [beq_iff_eq] at hmore
            refine holds_ok ⟨.less ?_ ?_ hmarks hcompletes, hsame⟩
            · exact fun hnil => hmore (Buffer.content_eq_nil.1 hnil)
            · show c₁.outputBuffer.readableBytes ≤ _
              rw [htook.readableBytes]
              exact Nat.sub_le ..
        next => exact holds_ok hstay
  next => exact holds_ok hstay

-- =============================================================== a step

/-- The action gives up the data that it sends. -/
def OutputAct.GivesUp (c : TcpConnection) : OutputAct → Prop
  | .sendInLoop _ w => c.state = .kDisconnected ∨ ¬ w.NoFault
  | _ => False

theorem outputStep_outcome (c : TcpConnection) (a : OutputAct) :
    Holds (c.outputStep a) fun c' =>
      Outcome c a.data (OutputAct.GivesUp c a) c' ∧ SameCallbacks c c' := by
  cases a with
  | sendInLoop data w => exact sendInLoop_outcome c data w
  | handleWrite w => exact handleWrite_outcome c w
  | shutdown =>
      simp only [outputStep]
      split <;>
        exact holds_ok ⟨.nothing (.inl rfl) rfl rfl rfl, ⟨rfl, rfl, rfl⟩⟩
  | shutdownInLoop =>
      obtain ⟨hmarks, hcompletes, hsame, hout⟩ := shutdownInLoop_calls c
      refine holds_ok ⟨.nothing (.inl rfl) ?_ hmarks hcompletes, hsame⟩
      rw [hout]

/-- `highWaterMarkCb_` is queued when the buffered size gets to the mark
from below, with the new size, and not otherwise. -/
theorem Outcome.marks_eq {data : List UInt8} {fault : Prop}
    (h : Outcome c data fault c') (hcb : c.highWaterMarkCb = true) :
    marks c'.obs = marks c.obs
      ++ (if c.outputSize < c.highWaterMark
          ∧ c.highWaterMark ≤ c'.outputSize then [c'.outputSize] else []) := by
  have hsize := outputSize_eq c
  have hsize' := outputSize_eq c'
  cases h with
  | nothing why content marks completes =>
      rw [content] at hsize'
      rw [marks, if_neg (by omega), List.append_nil]
  | complete content marks completes =>
      rw [content, List.length_nil] at hsize'
      rw [marks, if_neg (by omega), List.append_nil]
  | less content size marks completes =>
      rw [marks, if_neg (by omega), List.append_nil]
  | buffered rest some content marks completes =>
      rw [marks]
      unfold markCall
      rw [hcb]
      congr 1
      by_cases hcross : c.outputSize < c.highWaterMark
          ∧ c.highWaterMark ≤ c'.outputSize
      · rw [if_pos hcross, if_pos ⟨hcross.2, hcross.1, rfl⟩]
      · rw [if_neg hcross, if_neg fun h => hcross ⟨h.2.1, h.1⟩]

theorem sameCallbacks_run {acts : List OutputAct}
    (h : run outputStep c acts = .ok c') : SameCallbacks c c' :=
  run_inv_all (I := SameCallbacks c)
    (fun _ a _ hsame hstep =>
      hsame.trans ((outputStep_outcome _ a).of_ok hstep).2)
    (.refl c) h

-- ================================================ the high water mark

/-- The buffered sizes after the steps of a run. -/
def sizes (c : TcpConnection) : List OutputAct → List Nat
  | [] => []
  | a :: acts =>
      match c.outputStep a with
      | .ok c' => c'.outputSize :: sizes c' acts
      | .error _ => []

/-- The sizes at which a sequence of sizes gets to the mark from below. -/
def crossings (mark : Nat) : Nat → List Nat → List Nat
  | _, [] => []
  | old, new :: rest =>
      (if old < mark ∧ mark ≤ new then [new] else [])
        ++ crossings mark new rest

/-- One call for each upward crossing. -/
theorem marks_run {acts : List OutputAct} : ∀ {c : TcpConnection},
    c.highWaterMarkCb = true →
      Holds (run outputStep c acts) fun c' => marks c'.obs = marks c.obs
        ++ crossings c.highWaterMark c.outputSize (c.sizes acts) := by
  induction acts with
  | nil =>
      intro c _
      exact holds_ok (List.append_nil _).symm
  | cons a acts ih =>
      intro c hcb
      obtain ⟨c₁, hstep, hout, hsame⟩ := outputStep_outcome c a
      have hcb₁ : c₁.highWaterMarkCb = true := by
        rw [hsame.highWaterMarkCb]
        exact hcb
      rw [run_cons_ok acts hstep]
      apply holds_mono (ih hcb₁)
      intro c' hmarks
      rw [hmarks, hout.marks_eq hcb, hsame.highWaterMark, List.append_assoc]
      simp only [sizes, hstep, crossings]

/-- In every run `highWaterMarkCb_` is queued once for each upward
crossing of the mark and at no other step. Between two calls the buffered
size has been below the mark. -/
theorem highWaterMarkCb_counts_crossings (c : TcpConnection)
    (hcb : c.highWaterMarkCb = true) :
    (∀ acts, ∃ c', run outputStep c acts = .ok c'
        ∧ marks c'.obs = marks c.obs
          ++ crossings c.highWaterMark c.outputSize (c.sizes acts))
      ∧ (∀ acts a c₁ c₂, run outputStep c acts = .ok c₁ →
          c₁.outputStep a = .ok c₂ → marks c₂.obs = marks c₁.obs
            ++ (if c₁.outputSize < c.highWaterMark
                ∧ c.highWaterMark ≤ c₂.outputSize
              then [c₂.outputSize] else []))
      ∧ ∀ acts a between b c₁ c₂ c₃ c₄, run outputStep c acts = .ok c₁ →
          c₁.outputStep a = .ok c₂ → run outputStep c₂ between = .ok c₃ →
          c₃.outputStep b = .ok c₄ → marks c₂.obs ≠ marks c₁.obs →
          marks c₄.obs ≠ marks c₃.obs →
            c.highWaterMark ≤ c₂.outputSize
              ∧ c₃.outputSize < c.highWaterMark := by
  have hone : ∀ acts a c₁ c₂, run outputStep c acts = .ok c₁ →
      c₁.outputStep a = .ok c₂ → marks c₂.obs = marks c₁.obs
        ++ (if c₁.outputSize < c.highWaterMark
            ∧ c.highWaterMark ≤ c₂.outputSize
          then [c₂.outputSize] else []) := by
    intro acts a c₁ c₂ hrun hstep
    have hsame := sameCallbacks_run hrun
    have hmarks := ((outputStep_outcome c₁ a).of_ok hstep).1.marks_eq
      (hsame.highWaterMarkCb.trans hcb)
    rw [hsame.highWaterMark] at hmarks
    exact hmarks
  -- a step that calls has crossed the mark
  have hcross : ∀ acts a c₁ c₂, run outputStep c acts = .ok c₁ →
      c₁.outputStep a = .ok c₂ → marks c₂.obs ≠ marks c₁.obs →
        c₁.outputSize < c.highWaterMark
          ∧ c.highWaterMark ≤ c₂.outputSize := by
    intro acts a c₁ c₂ hrun hstep hcall
    by_contra hno
    apply hcall
    rw [hone acts a c₁ c₂ hrun hstep, if_neg hno, List.append_nil]
  refine ⟨fun acts => marks_run hcb, hone, ?_⟩
  intro acts a between b c₁ c₂ c₃ c₄ hrun hstep hrun' hstep' hcall hcall'
  refine ⟨(hcross acts a c₁ c₂ hrun hstep hcall).2, ?_⟩
  have hall : run outputStep c (acts ++ a :: between) = .ok c₃ := by
    rw [run_append _ hrun, run_cons_ok between hstep]
    exact hrun'
  exact (hcross _ b c₃ c₄ hall hstep' hcall').1

/-- A connection with a low mark. -/
def lowMark : TcpConnection :=
  { established 9 true true with highWaterMark := 3 }

/-- Past the mark, below it, and at the mark again. -/
def twoCrossings : List OutputAct :=
  [.sendInLoop [1, 2, 3, 4, 5] (.wrote 1), .sendInLoop [6] (.wrote 1),
    .handleWrite (.wrote 4), .sendInLoop [7, 8] (.wrote 2)]

theorem highWaterMarkCb_counts_crossings_two :
    ∃ c', run outputStep lowMark twoCrossings = .ok c'
      ∧ marks c'.obs = [4, 3] := by
  obtain ⟨c', hrun, hmarks⟩ :=
    (highWaterMarkCb_counts_crossings lowMark rfl).1 twoCrossings
  exact ⟨c', hrun, hmarks.trans (by decide +kernel)⟩

-- ======================================================= write complete

/-- A step that calls `writeCompleteCb_` leaves nothing to write. -/
theorem Outcome.content_of_completes {data : List UInt8} {fault : Prop}
    (h : Outcome c data fault c') (hcall : completes c'.obs ≠ completes c.obs) :
    c'.outputBuffer.content = [] := by
  cases h with
  | nothing why content marks completes => exact absurd completes hcall
  | complete content marks completes => exact content
  | less content size marks completes => exact absurd completes hcall
  | buffered rest some content marks completes =>
      exact absurd completes hcall

/-- A step that writes the last bytes calls `writeCompleteCb_`. -/
theorem Outcome.completes_of_content {data : List UInt8} {fault : Prop}
    (h : Outcome c data fault c') (hcb : c.writeCompleteCb = true)
    (hfault : ¬ fault) (hpending : c.outputBuffer.content ++ data ≠ [])
    (hempty : c'.outputBuffer.content = []) :
    completes c'.obs = completes c.obs + 1 := by
  cases h with
  | nothing why content marks completes =>
      have hdata := why.resolve_right hfault
      rw [hdata, List.append_nil, ← content] at hpending
      exact absurd hempty hpending
  | complete content marks completes =>
      rw [completes]
      unfold completeCall
      rw [hcb]
      rfl
  | less content size marks completes => exact absurd hempty content
  | buffered rest some content marks completes =>
      rw [content] at hempty
      exact absurd (List.append_eq_nil_iff.1 hempty).2 some

theorem up_run {acts : List OutputAct} : ∀ {c : TcpConnection}, Up c →
    (∀ a ∈ acts, a.NoFault) → run outputStep c acts = .ok c' → Up c' := by
  induction acts with
  | nil =>
      intro c hup _ hrun
      cases hrun
      exact hup
  | cons a acts ih =>
      intro c hup hacts hrun
      obtain ⟨c₁, hstep, hrest⟩ := run_cons_inv hrun
      have hup₁ := ((outputStep_stream hup
        (hacts a (List.mem_cons_self ..))).of_ok hstep).1
      exact ih hup₁ (fun a' ha' => hacts a' (List.mem_cons_of_mem _ ha')) hrest

/-- Nothing is given up on a connection that is up. -/
theorem Up.not_givesUp (hup : Up c) {a : OutputAct} (ha : a.NoFault) :
    ¬ OutputAct.GivesUp c a := by
  cases a with
  | sendInLoop data w =>
      rintro (hdown | hfault)
      · exact hup.ne_disconnected hdown
      · exact hfault ha
  | _ => exact id

/-- In every run on a connection that is up, without an error that gives
data up: when `writeCompleteCb_` is queued all bytes that were sent have
been taken, and a step that takes the last of them queues it once. -/
theorem writeCompleteCb_sound_complete (c : TcpConnection) (hup : Up c)
    (hcb : c.writeCompleteCb = true) (acts : List OutputAct) (a : OutputAct)
    (hacts : ∀ x ∈ acts ++ [a], x.NoFault) :
    ∃ c₁ c₂, run outputStep c acts = .ok c₁ ∧ c₁.outputStep a = .ok c₂
      ∧ (completes c₂.obs ≠ completes c₁.obs →
          accepted c₂.obs
            = c.stream ++ (acts ++ [a]).flatMap OutputAct.data)
      ∧ (c₁.outputBuffer.content ++ a.data ≠ [] →
          c₂.outputBuffer.content = [] →
            completes c₂.obs = completes c₁.obs + 1) := by
  have hfirst : ∀ x ∈ acts, x.NoFault := fun x hx =>
    hacts x (List.mem_append_left _ hx)
  have hlast : a.NoFault :=
    hacts a (List.mem_append_right _ (List.mem_singleton_self a))
  obtain ⟨c₁, hrun, hstream₁⟩ := stream_run acts hup hfirst
  have hup₁ := up_run hup hfirst hrun
  obtain ⟨c₂, hstep, -, hstream₂⟩ := outputStep_stream hup₁ hlast
  have hout := ((outputStep_outcome c₁ a).of_ok hstep).1
  refine ⟨c₁, c₂, hrun, hstep, fun hcall => ?_, fun hpending hempty => ?_⟩
  · have hempty := hout.content_of_completes hcall
    unfold stream at hstream₂
    rw [hempty, List.append_nil] at hstream₂
    rw [hstream₂]
    show c₁.stream ++ _ = _
    rw [hstream₁, List.flatMap_append, List.append_assoc]
    simp only [List.flatMap_cons, List.flatMap_nil, List.append_nil]
  · exact hout.completes_of_content
      ((sameCallbacks_run hrun).writeCompleteCb.trans hcb)
      (hup₁.not_givesUp hlast) hpending hempty

/-- A partial direct write and the write event that finishes it. -/
theorem writeCompleteCb_sound_complete_drained :
    ∃ c₁ c₂, run outputStep (established 9 true true)
        [.sendInLoop [1, 2, 3] (.wrote 1)] = .ok c₁
      ∧ c₁.outputStep (.handleWrite (.wrote 2)) = .ok c₂
      ∧ (completes c₂.obs ≠ completes c₁.obs →
          accepted c₂.obs = [1, 2, 3])
      ∧ (c₁.outputBuffer.content ++ [] ≠ [] →
          c₂.outputBuffer.content = [] →
            completes c₂.obs = completes c₁.obs + 1) :=
  writeCompleteCb_sound_complete (established 9 true true) (.inl rfl) rfl
    [.sendInLoop [1, 2, 3] (.wrote 1)] (.handleWrite (.wrote 2)) (by decide)

end TcpConnection

end Cobra
