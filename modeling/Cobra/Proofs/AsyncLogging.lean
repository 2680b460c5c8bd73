/-
The buffers of `AsyncLogging`: the back-end always has what the next
round needs, and no line is lost between the producers and the output.

# The stock

`Stocked` says what the assertions of the source say, and why they hold.
A round starts with two empty buffers. Its swap always gives the first
one away, and the second one only if the producers have taken
`nextBuffer_`. They take it when they push a full buffer; since the last
swap has left `nextBuffer_` filled and `buffers_` empty, the round then
finds at least two buffers and gets two back.

# The lines

`Split` cuts the appended lines into those that each buffer holds: of the
rounds so far, of `buffers_`, and of `currentBuffer_`. A line that does
not fit starts a new buffer, so that the cuts are between lines.
-/
import Cobra.AsyncLogging

namespace Cobra.AsyncLogging

open Machine

variable {s s' : AsyncLogging}

-- ========================================================= the buffers

theorem data_append {size : Nat} {b : FixedBuffer size} {buf : List UInt8}
    (h : buf.length < b.avail) : (b.append buf).data = b.data ++ buf := by
  unfold FixedBuffer.append
  rw [dif_pos h]

theorem isFresh_iff {b : Option LogBuffer} :
    isFresh b = true ↔ ∃ c, b = some c ∧ c.data = [] := by
  cases b with
  | none => simp [isFresh]
  | some c => simp [isFresh, FixedBuffer.length]

-- =========================================================== the stock

/-- What the back-end has in hand, at each place of its round. -/
def RoundOk (s : AsyncLogging) : Prop :=
  match s.pc with
  | .notStarted | .returned => True
  | .opening => s.running = true
  | .test | .locking | .waiting =>
      isFresh s.newBuffer1 = true ∧ isFresh s.newBuffer2 = true
        ∧ s.buffersToWrite = []
  | .swapped | .writing _ | .recycling =>
      s.newBuffer1 = none ∧ s.buffersToWrite ≠ []
        ∧ (s.newBuffer2 = none → 2 ≤ s.buffersToWrite.length)
        ∧ ∀ b, s.newBuffer2 = some b → b.data = []

structure Stocked (s : AsyncLogging) : Prop where
  current : s.currentBuffer.isSome = true
  nextEmpty : ∀ b, s.nextBuffer = some b → b.data = []
  nextTaken : s.nextBuffer = none → s.buffers ≠ []
  round : s.RoundOk

theorem create_stocked : Stocked create where
  current := rfl
  nextEmpty := by
    intro b hb
    cases hb
    rfl
  nextTaken := nofun
  round := trivial

theorem append_stocked (h : Stocked s) (logline : List UInt8) :
    Holds (s.append logline) Stocked := by
  obtain ⟨b, hb⟩ := Option.isSome_iff_exists.mp h.current
  unfold append
  rw [hb]
  simp only
  split
  next => exact holds_ok ⟨rfl, h.nextEmpty, h.nextTaken, h.round⟩
  next =>
    refine holds_ok ⟨rfl, nofun, fun _ => ?_,
      h.round⟩
    exact List.append_ne_nil_of_right_ne_nil _ (List.cons_ne_nil b [])

/-- The swap of a round that starts with two empty buffers. -/
theorem swap_stocked (h : Stocked s) (h1 : isFresh s.newBuffer1 = true)
    (h2 : isFresh s.newBuffer2 = true) (hempty : s.buffersToWrite = []) :
    Holds s.swap Stocked := by
  obtain ⟨b, hb⟩ := Option.isSome_iff_exists.mp h.current
  obtain ⟨n1, hn1, -⟩ := isFresh_iff.mp h1
  obtain ⟨n2, hn2, hdata2⟩ := isFresh_iff.mp h2
  have hne : s.buffers ++ [b] ≠ [] :=
    List.append_ne_nil_of_right_ne_nil _ (List.cons_ne_nil b [])
  unfold swap
  rw [hb, hn1, hn2, hempty]
  simp only
  cases hnext : s.nextBuffer with
  | some c =>
      refine holds_ok ⟨rfl, ?_, nofun, rfl, hne,
        nofun, ?_⟩
      · intro d hd
        exact h.nextEmpty d (hnext.trans hd)
      · intro d hd
        cases hd
        exact hdata2
  | none =>
      have htaken := List.length_pos_of_ne_nil (h.nextTaken hnext)
      refine holds_ok ⟨rfl, ?_, nofun, rfl, hne,
        fun _ => ?_, nofun⟩
      · intro d hd
        cases hd
        exact hdata2
      · rw [List.length_append, List.length_singleton]
        omega

theorem check_stocked (h : Stocked s) (hpc : s.pc = .swapped) (now : String) :
    Holds (s.check now) Stocked := by
  have hround := h.round
  unfold RoundOk at hround
  rw [hpc] at hround
  obtain ⟨h1, hne, h2, hdata2⟩ := hround
  unfold check
  apply holds_require hne
  split
  next hmany =>
    have hlen : (s.buffersToWrite.take 2).length = 2 := by
      unfold kMaxBuffers at hmany
      rw [List.length_take]
      omega
    refine holds_ok ⟨h.current, h.nextEmpty, h.nextTaken, h1, ?_, ?_, hdata2⟩
    · exact List.ne_nil_of_length_eq_add_one hlen
    · exact fun _ => Nat.le_of_eq hlen.symm
  next => exact holds_ok ⟨h.current, h.nextEmpty, h.nextTaken, h1, hne, h2, hdata2⟩

theorem write_stocked {i : Nat} (h : Stocked s) (hpc : s.pc = .writing i) :
    Stocked (s.write i) := by
  have hround := h.round
  unfold RoundOk at hround
  rw [hpc] at hround
  unfold write
  split
  next => exact ⟨h.current, h.nextEmpty, h.nextTaken, hround⟩
  next => exact ⟨h.current, h.nextEmpty, h.nextTaken, hround⟩

/-- A refill with something to take. -/
theorem refill_ok {newBuffer : Option LogBuffer} {toWrite : List LogBuffer}
    (e : AsyncAssert) (hdata : ∀ b, newBuffer = some b → b.data = [])
    (hne : newBuffer = none → toWrite ≠ []) :
    Holds (refill newBuffer toWrite e) fun r =>
      r.1.data = [] ∧ toWrite.length ≤ r.2.length + 1 := by
  unfold refill
  cases hn : newBuffer with
  | some b => exact holds_ok ⟨hdata b hn, Nat.le_succ _⟩
  | none =>
      have hne' := hne hn
      simp only [List.getLast?_eq_getLast_of_ne_nil hne']
      refine holds_ok ⟨rfl, ?_⟩
      rw [List.length_dropLast]
      omega

theorem recycle_stocked (h : Stocked s) (hpc : s.pc = .recycling) :
    Holds s.recycle Stocked := by
  have hround := h.round
  unfold RoundOk at hround
  rw [hpc] at hround
  obtain ⟨h1, hne, h2, hdata2⟩ := hround
  have hpos := List.length_pos_of_ne_nil hne
  have hlen : min 2 s.buffersToWrite.length
      ≤ (if 2 < s.buffersToWrite.length then s.buffersToWrite.take 2
          else s.buffersToWrite).length := by
    split
    next =>
      exact Nat.le_of_eq List.length_take.symm
    next => exact Nat.min_le_right ..
  unfold recycle
  rw [h1]
  refine holds_bind (refill_ok .refill1 nofun
    fun _ => List.ne_nil_of_length_pos (by omega)) ?_
  rintro ⟨n1, rest⟩ ⟨hdata1, hrest⟩
  refine holds_bind (refill_ok .refill2 hdata2 fun hnone => ?_) ?_
  · have htwo := h2 hnone
    exact List.ne_nil_of_length_pos (by simp only at hrest ⊢; omega)
  · rintro ⟨n2, rest'⟩ ⟨hdata2', -⟩
    refine holds_ok ⟨h.current, h.nextEmpty, h.nextTaken, ?_, ?_, rfl⟩
    · exact isFresh_iff.mpr ⟨n1, rfl, hdata1⟩
    · exact isFresh_iff.mpr ⟨n2, rfl, hdata2'⟩

theorem step_stocked (h : Stocked s) (a : AsyncAct) :
    Holds (s.step a) Stocked := by
  have hround := h.round
  unfold RoundOk at hround
  unfold step
  cases a with
  | append logline => exact append_stocked h logline
  | start =>
      simp only
      split
      next => exact holds_ok ⟨h.current, h.nextEmpty, h.nextTaken, rfl⟩
      next => exact holds_ok h
  | stop =>
      simp only
      split
      next => exact holds_ok h
      next hpc =>
        refine holds_ok ⟨h.current, h.nextEmpty, h.nextTaken, ?_⟩
        unfold RoundOk
        cases hs : s.pc with
        | opening => exact absurd (.inr hs) hpc
        | notStarted | returned => trivial
        | test | locking | waiting | swapped | writing _ | recycling =>
            rw [hs] at hround
            exact hround
  | opened =>
      simp only
      split
      next hpc =>
        rw [hpc] at hround
        exact holds_require hround
          (holds_ok ⟨h.current, h.nextEmpty, h.nextTaken, rfl, rfl, rfl⟩)
      next => exact holds_ok h
  | test =>
      simp only
      split
      next hpc =>
        rw [hpc] at hround
        obtain ⟨h1, h2, hempty⟩ := hround
        unfold testRunning
        split
        next =>
          refine holds_require h1 (holds_require h2 (holds_require hempty ?_))
          exact holds_ok ⟨h.current, h.nextEmpty, h.nextTaken, h1, h2, hempty⟩
        next => exact holds_ok ⟨h.current, h.nextEmpty, h.nextTaken, trivial⟩
      next => exact holds_ok h
  | lock =>
      simp only
      split
      next hpc =>
        rw [hpc] at hround
        obtain ⟨h1, h2, hempty⟩ := hround
        split
        next =>
          exact holds_ok ⟨h.current, h.nextEmpty, h.nextTaken, h1, h2, hempty⟩
        next => exact swap_stocked h h1 h2 hempty
      next => exact holds_ok h
  | wake =>
      simp only
      split
      next hpc =>
        rw [hpc] at hround
        exact swap_stocked h hround.1 hround.2.1 hround.2.2
      next => exact holds_ok h
  | check now =>
      simp only
      split
      next hpc => exact check_stocked h hpc now
      next => exact holds_ok h
  | write =>
      simp only
      split
      next i hpc => exact holds_ok (write_stocked h hpc)
      next => exact holds_ok h
  | recycle =>
      simp only
      split
      next hpc => exact recycle_stocked h hpc
      next => exact holds_ok h

/-- In every interleaving no assertion of the back-end fails and nothing
goes through a null pointer: `currentBuffer_` is there whenever the mutex
is free, and at the head of a round there are two empty buffers and
nothing left to write. -/
theorem buffers_never_run_dry (acts : List AsyncAct) :
    ∃ s, run step create acts = .ok s
      ∧ s.currentBuffer.isSome = true
      ∧ (s.pc = .test ∨ s.pc = .locking →
          isFresh s.newBuffer1 = true ∧ isFresh s.newBuffer2 = true
            ∧ s.buffersToWrite = []) := by
  obtain ⟨s, hrun, h⟩ := run_safe (C := fun _ _ => True) (I := Stocked)
    (fun s a h _ => step_stocked h a) create_stocked
    (along_of_forall (fun _ _ => trivial) acts _)
  refine ⟨s, hrun, h.current, ?_⟩
  have hround := h.round
  unfold RoundOk at hround
  rintro (hpc | hpc)
  · rw [hpc] at hround
    exact hround
  · rw [hpc] at hround
    exact hround

-- ======================================================== the lines

/-- The lines, cut into those of each buffer: of each round's, of those
in `buffers_`, and of `currentBuffer_`. -/
structure Split (lines : List (List UInt8)) (s : AsyncLogging)
    (rounds : List (List (List (List UInt8))))
    (pend : List (List (List UInt8))) (cur : List (List UInt8)) : Prop where
  lines_eq : lines = rounds.flatten.flatten ++ pend.flatten ++ cur
  found : s.found = rounds.map (List.map List.flatten)
  buffers : s.buffers.map FixedBuffer.data = pend.map List.flatten
  current : s.currentBuffer.map FixedBuffer.data = some cur.flatten

variable {lines : List (List UInt8)} {rounds : List (List (List (List UInt8)))}
  {pend : List (List (List UInt8))} {cur : List (List UInt8)}

theorem create_split : Split [] create [] [] [] := ⟨rfl, rfl, rfl, rfl⟩

/-- A line goes behind the others of the current buffer, or starts a new
one. -/
theorem append_split {logline : List UInt8} (h : Split lines s rounds pend cur)
    (hnext : ∀ b, s.nextBuffer = some b → b.data = [])
    (hshort : logline.length < kLargeBuffer)
    (hs : s.append logline = .ok s') :
    ∃ pend' cur', Split (lines ++ [logline]) s' rounds pend' cur' := by
  have hlines := h.lines_eq
  obtain ⟨b, hb, hdata⟩ := Option.map_eq_some_iff.mp h.current
  unfold append at hs
  rw [hb] at hs
  simp only at hs
  split at hs
  next hfits =>
    cases hs
    refine ⟨pend, cur ++ [logline], ?_, h.found, h.buffers, ?_⟩
    · rw [hlines, List.append_assoc _ cur]
    · simp only [Option.map_some, data_append hfits, hdata, List.flatten_append,
        List.flatten_singleton]
  next =>
    cases hs
    have hfresh : (s.nextBuffer.getD .new).data = [] := by
      cases hn : s.nextBuffer with
      | some c => exact hnext c hn
      | none => rfl
    have hfits : logline.length < (s.nextBuffer.getD .new).avail := by
      unfold FixedBuffer.avail
      rw [hfresh]
      exact hshort
    refine ⟨pend ++ [cur], [logline], ?_, h.found, ?_, ?_⟩
    · rw [hlines, List.flatten_append, List.flatten_singleton, List.append_assoc,
        List.append_assoc, List.append_assoc, List.append_assoc]
    · simp only [List.map_append, h.buffers, List.map_cons, List.map_nil, hdata]
    · simp only [Option.map_some, data_append hfits, hfresh, List.nil_append,
        List.flatten_singleton]

/-- A swap turns what was pending into a round. -/
theorem swap_split (h : Split lines s rounds pend cur)
    (hfresh : isFresh s.newBuffer1 = true) (hempty : s.buffersToWrite = [])
    (hs : s.swap = .ok s') :
    Split lines s' (rounds ++ [pend ++ [cur]]) [] [] := by
  obtain ⟨b, hb, hdata⟩ := Option.map_eq_some_iff.mp h.current
  obtain ⟨n1, hn1, hdata1⟩ := isFresh_iff.mp hfresh
  have hlines : lines = (rounds ++ [pend ++ [cur]]).flatten.flatten
      ++ ([] : List (List (List UInt8))).flatten ++ [] := by
    rw [h.lines_eq]
    simp only [List.flatten_append, List.flatten_singleton, List.flatten_nil,
      List.append_nil, List.append_assoc]
  have hfound : s.found ++ [(s.buffers ++ [b]).map FixedBuffer.data]
      = (rounds ++ [pend ++ [cur]]).map (List.map List.flatten) := by
    simp only [h.found, List.map_append, h.buffers, hdata, List.map_cons,
      List.map_nil]
  unfold swap at hs
  rw [hb, hn1, hempty] at hs
  simp only at hs
  split at hs
  next =>
    cases hs
    exact ⟨hlines, hfound, rfl, congrArg some hdata1⟩
  next =>
    cases hs
    exact ⟨hlines, hfound, rfl, congrArg some hdata1⟩

-- ======================================================= the hand-over

theorem kept_map {α β : Type} (f : α → β) (l : List α) :
    kept (l.map f) = (kept l).map f := by
  unfold kept
  rw [List.length_map]
  split
  next => rw [List.map_take]
  next => rfl

/-- The buffers handed over and those still to be are what is kept of
each round. -/
structure HandedOver (s : AsyncLogging) : Prop where
  data : handed s.output ++ s.unwritten.map FixedBuffer.data
    = s.found.flatMap kept
  notices : (∀ r ∈ s.found, r.length ≤ kMaxBuffers) →
    ∀ text, LogChunk.notice text ∉ s.output
  swapped : s.pc = .swapped →
    ∃ before, s.found = before ++ [s.buffersToWrite.map FixedBuffer.data]

theorem create_handedOver : HandedOver create :=
  ⟨rfl, fun _ _ => List.not_mem_nil, nofun⟩

/-- A swap from a place where nothing is left to write. -/
theorem swap_handedOver (h : HandedOver s) (hnone : s.unwritten = [])
    (hs : s.swap = .ok s') : HandedOver s' := by
  have hdata := h.data
  rw [hnone, List.map_nil, List.append_nil] at hdata
  have hnext : ∀ t : AsyncLogging, t.output = s.output → t.pc = .swapped →
      t.found = s.found ++ [t.buffersToWrite.map FixedBuffer.data] →
      HandedOver t := by
    intro t hout hpc hfound
    refine ⟨?_, ?_, fun _ => ⟨s.found, hfound⟩⟩
    · have hunwritten : t.unwritten = kept t.buffersToWrite := by
        unfold unwritten
        rw [hpc]
      rw [hout, hunwritten, hfound, hdata, List.flatMap_append,
        List.flatMap_singleton, kept_map]
    · intro hfew text
      rw [hout]
      refine h.notices (fun r hr => hfew r ?_) text
      rw [hfound]
      exact List.mem_append_left _ hr
  unfold swap at hs
  split at hs
  next => cases hs
  next b hb =>
    simp only at hs
    split at hs
    next =>
      cases hs
      exact hnext _ rfl rfl rfl
    next =>
      cases hs
      exact hnext _ rfl rfl rfl

theorem check_handedOver {now : String} (h : HandedOver s)
    (hpc : s.pc = .swapped) (hs : s.check now = .ok s') : HandedOver s' := by
  obtain ⟨before, hlast⟩ := h.swapped hpc
  have hdata := h.data
  unfold unwritten at hdata
  rw [hpc] at hdata
  unfold check at hs
  obtain ⟨_, -, hrest⟩ := bind_ok_inv hs
  split at hrest
  next hmany =>
    cases hrest
    simp only [kept, if_pos hmany] at hdata
    refine ⟨?_, ?_, nofun⟩
    · simp only [handed, List.filterMap_append, List.filterMap_cons,
        List.filterMap_nil, List.append_nil]
      exact hdata
    · intro hfew
      have hlen := hfew (s.buffersToWrite.map FixedBuffer.data) (by
        rw [hlast]
        exact List.mem_append_right _ (List.mem_singleton.mpr rfl))
      rw [List.length_map] at hlen
      omega
  next hfew =>
    cases hrest
    simp only [kept, if_neg hfew] at hdata
    exact ⟨hdata, h.notices, nofun⟩

theorem write_handedOver {i : Nat} (h : HandedOver s)
    (hpc : s.pc = .writing i) : HandedOver (s.write i) := by
  have hdata := h.data
  unfold unwritten at hdata
  rw [hpc] at hdata
  simp only at hdata
  unfold write
  split
  next b hb =>
    obtain ⟨hi, hget⟩ := List.getElem?_eq_some_iff.mp hb
    refine ⟨?_, ?_, nofun⟩
    · rw [List.drop_eq_getElem_cons hi, hget] at hdata
      simp only [handed, List.filterMap_append, List.filterMap_cons,
        List.filterMap_nil, unwritten, List.append_assoc]
      exact hdata
    · intro hfew text hmem
      obtain hold | hnew := List.mem_append.mp hmem
      · exact h.notices hfew text hold
      · cases List.mem_singleton.mp hnew
  next hnone =>
    refine ⟨?_, h.notices, nofun⟩
    rw [List.drop_eq_nil_of_le (List.getElem?_eq_none_iff.mp hnone)] at hdata
    exact hdata

-- ========================================================== the steps

/-- A step that moves no buffer that holds lines. -/
structure Quiet (s s' : AsyncLogging) : Prop where
  output : s'.output = s.output
  found : s'.found = s.found
  buffers : s'.buffers = s.buffers
  current : s'.currentBuffer = s.currentBuffer
  unwritten : s'.unwritten = s.unwritten
  swapped : s'.pc = .swapped →
    s.pc = .swapped ∧ s'.buffersToWrite = s.buffersToWrite
  /-- Once the back-end is stopped it makes no new round. -/
  stopped : s.started → s.running = false →
    s'.started ∧ s'.running = false ∧ (s'.swapAhead ↔ s.swapAhead)

theorem Quiet.refl (s : AsyncLogging) : Quiet s s :=
  ⟨rfl, rfl, rfl, rfl, rfl, fun h => ⟨h, rfl⟩, fun h1 h2 => ⟨h1, h2, Iff.rfl⟩⟩

theorem testRunning_quiet (hpc : s.pc = .test) (hs : s.testRunning = .ok s') :
    Quiet s s' := by
  have hnone : s.unwritten = [] := by
    unfold unwritten
    rw [hpc]
  have hnot : ¬ s.swapAhead := by
    unfold swapAhead
    rw [hpc]
    decide
  unfold testRunning at hs
  split at hs
  next hrunning =>
    obtain ⟨_, -, hs⟩ := bind_ok_inv hs
    obtain ⟨_, -, hs⟩ := bind_ok_inv hs
    obtain ⟨_, -, hs⟩ := bind_ok_inv hs
    cases hs
    refine ⟨rfl, rfl, rfl, rfl, hnone.symm, nofun, fun _ hstop => ?_⟩
    rw [hrunning] at hstop
    cases hstop
  next =>
    cases hs
    refine ⟨rfl, rfl, rfl, rfl, hnone.symm, nofun, fun _ hstop => ⟨?_, hstop, ?_⟩⟩
    · exact ⟨nofun, nofun⟩
    · exact iff_of_false (by rintro (h | h) <;> cases h) hnot

theorem recycle_quiet (hpc : s.pc = .recycling) (hs : s.recycle = .ok s') :
    Quiet s s' := by
  have hnone : s.unwritten = [] := by
    unfold unwritten
    rw [hpc]
  have hnot : ¬ s.swapAhead := by
    unfold swapAhead
    rw [hpc]
    decide
  unfold recycle at hs
  obtain ⟨_, -, hs⟩ := bind_ok_inv hs
  obtain ⟨_, -, hs⟩ := bind_ok_inv hs
  cases hs
  refine ⟨rfl, rfl, rfl, rfl, hnone.symm, nofun, fun _ hstop => ⟨?_, hstop, ?_⟩⟩
  · exact ⟨nofun, nofun⟩
  · exact iff_of_false (by rintro (h | h) <;> cases h) hnot

/-- What a step can do: a line is appended, a round swaps, checks or
hands over a buffer, or nothing happens to the lines. -/
inductive Effect (s s' : AsyncLogging) (a : AsyncAct) : Prop
  | append (logline : List UInt8) (ha : a = .append logline)
      (hs : s.append logline = .ok s')
  | swap (ha : linesOf [a] = []) (hpc : s.swapAhead) (hs : s.swap = .ok s')
  | check (ha : linesOf [a] = []) (now : String) (hpc : s.pc = .swapped)
      (hs : s.check now = .ok s')
  | write (ha : linesOf [a] = []) (i : Nat) (hpc : s.pc = .writing i)
      (hs : s' = s.write i)
  | quiet (ha : linesOf [a] = []) (hs : Quiet s s')

/-- A step that is not possible now. -/
theorem effect_stay {a : AsyncAct} (ha : linesOf [a] = [])
    (hs : (.ok s : Except AsyncAssert AsyncLogging) = .ok s') :
    Effect s s' a := by
  cases hs
  exact .quiet ha (Quiet.refl s)

theorem step_effect {a : AsyncAct} (hs : s.step a = .ok s') :
    Effect s s' a := by
  unfold step at hs
  cases a with
  | append logline => exact .append logline rfl hs
  | start =>
      simp only at hs
      split at hs
      next hpc =>
        cases hs
        refine .quiet rfl
          ⟨rfl, rfl, rfl, rfl, ?_, nofun, fun hstart => absurd hpc hstart.1⟩
        unfold unwritten
        rw [hpc]
      next => exact effect_stay rfl hs
  | stop =>
      simp only at hs
      split at hs
      next => exact effect_stay rfl hs
      next =>
        cases hs
        exact .quiet rfl ⟨rfl, rfl, rfl, rfl, rfl, fun h => ⟨h, rfl⟩,
          fun hstart _ => ⟨hstart, rfl, Iff.rfl⟩⟩
  | opened =>
      simp only at hs
      split at hs
      next hpc =>
        obtain ⟨_, -, hs⟩ := bind_ok_inv hs
        cases hs
        refine .quiet rfl
          ⟨rfl, rfl, rfl, rfl, ?_, nofun, fun hstart => absurd hpc hstart.2⟩
        unfold unwritten
        rw [hpc]
      next => exact effect_stay rfl hs
  | test =>
      simp only at hs
      split at hs
      next hpc =>
        exact .quiet rfl (testRunning_quiet hpc hs)
      next => exact effect_stay rfl hs
  | lock =>
      simp only at hs
      split at hs
      next hpc =>
        split at hs
        next =>
          cases hs
          refine .quiet rfl
            ⟨rfl, rfl, rfl, rfl, ?_, nofun, fun _ hstop => ⟨?_, hstop, ?_⟩⟩
          · unfold unwritten
            rw [hpc]
          · exact ⟨nofun, nofun⟩
          · exact iff_of_true (.inr rfl) (.inl hpc)
        next => exact .swap rfl (.inl hpc) hs
      next => exact effect_stay rfl hs
  | wake =>
      simp only at hs
      split at hs
      next hpc => exact .swap rfl (.inr hpc) hs
      next => exact effect_stay rfl hs
  | check now =>
      simp only at hs
      split at hs
      next hpc => exact .check rfl now hpc hs
      next => exact effect_stay rfl hs
  | write =>
      simp only at hs
      split at hs
      next i hpc =>
        exact .write rfl i hpc (Except.ok.inj hs).symm
      next => exact effect_stay rfl hs
  | recycle =>
      simp only at hs
      split at hs
      next hpc => exact .quiet rfl (recycle_quiet hpc hs)
      next => exact effect_stay rfl hs

-- ============================================================ the runs

/-- Where a swap is ahead, the round has what it needs. -/
theorem Stocked.of_swapAhead (h : Stocked s) (hpc : s.swapAhead) :
    isFresh s.newBuffer1 = true ∧ s.buffersToWrite = []
      ∧ s.unwritten = [] := by
  have hround := h.round
  unfold RoundOk at hround
  unfold unwritten
  obtain hpc | hpc := hpc
  · rw [hpc] at hround ⊢
    exact ⟨hround.1, hround.2.2, rfl⟩
  · rw [hpc] at hround ⊢
    exact ⟨hround.1, hround.2.2, rfl⟩

theorem append_frame {logline : List UInt8} (hs : s.append logline = .ok s') :
    s'.pc = s.pc ∧ s'.running = s.running ∧ s'.output = s.output
      ∧ s'.found = s.found ∧ s'.buffersToWrite = s.buffersToWrite := by
  unfold append at hs
  split at hs
  next => cases hs
  next b hb =>
    split at hs
    next =>
      cases hs
      exact ⟨rfl, rfl, rfl, rfl, rfl⟩
    next =>
      cases hs
      exact ⟨rfl, rfl, rfl, rfl, rfl⟩

theorem check_frame {now : String} (hs : s.check now = .ok s') :
    s'.pc = .writing 0 ∧ s'.running = s.running ∧ s'.found = s.found
      ∧ s'.buffers = s.buffers ∧ s'.currentBuffer = s.currentBuffer := by
  unfold check at hs
  obtain ⟨_, -, hs⟩ := bind_ok_inv hs
  split at hs
  next =>
    cases hs
    exact ⟨rfl, rfl, rfl, rfl, rfl⟩
  next =>
    cases hs
    exact ⟨rfl, rfl, rfl, rfl, rfl⟩

theorem write_frame (s : AsyncLogging) (i : Nat) :
    (s.write i).found = s.found ∧ (s.write i).buffers = s.buffers
      ∧ (s.write i).currentBuffer = s.currentBuffer
      ∧ (s.write i).running = s.running
      ∧ ((s.write i).pc = .writing (i + 1) ∨ (s.write i).pc = .recycling) := by
  unfold write
  split
  next => exact ⟨rfl, rfl, rfl, rfl, .inl rfl⟩
  next => exact ⟨rfl, rfl, rfl, rfl, .inr rfl⟩

/-- The same buffers hold the same lines. -/
theorem Split.congr (h : Split lines s rounds pend cur)
    (hfound : s'.found = s.found) (hbuffers : s'.buffers = s.buffers)
    (hcurrent : s'.currentBuffer = s.currentBuffer) :
    Split lines s' rounds pend cur := by
  refine ⟨h.lines_eq, ?_, ?_, ?_⟩
  · rw [hfound]
    exact h.found
  · rw [hbuffers]
    exact h.buffers
  · rw [hcurrent]
    exact h.current

theorem step_split {a : AsyncAct} (hst : Stocked s)
    (h : Split lines s rounds pend cur)
    (hshort : ∀ l ∈ linesOf [a], l.length < kLargeBuffer)
    (hs : s.step a = .ok s') :
    ∃ rounds' pend' cur', Split (lines ++ linesOf [a]) s' rounds' pend' cur' := by
  cases step_effect hs with
  | append logline ha hs =>
      subst ha
      obtain ⟨pend', cur', hsplit⟩ := append_split h hst.nextEmpty
        (hshort logline (List.mem_singleton.mpr rfl)) hs
      exact ⟨rounds, pend', cur', hsplit⟩
  | swap ha hpc hs =>
      obtain ⟨hfresh, hempty, -⟩ := hst.of_swapAhead hpc
      rw [ha, List.append_nil]
      exact ⟨_, _, _, swap_split h hfresh hempty hs⟩
  | check ha now hpc hs =>
      obtain ⟨-, -, hfound, hbuffers, hcurrent⟩ := check_frame hs
      rw [ha, List.append_nil]
      exact ⟨_, _, _, h.congr hfound hbuffers hcurrent⟩
  | write ha i hpc hs =>
      obtain ⟨hfound, hbuffers, hcurrent, -⟩ := write_frame s i
      rw [ha, List.append_nil, hs]
      exact ⟨_, _, _, h.congr hfound hbuffers hcurrent⟩
  | quiet ha hq =>
      rw [ha, List.append_nil]
      exact ⟨_, _, _, h.congr hq.found hq.buffers hq.current⟩

theorem step_handedOver {a : AsyncAct} (hst : Stocked s) (h : HandedOver s)
    (hs : s.step a = .ok s') : HandedOver s' := by
  cases step_effect hs with
  | append logline ha hs =>
      obtain ⟨hpc, -, hout, hfound, hwrite⟩ := append_frame hs
      have hun : s'.unwritten = s.unwritten := by
        unfold unwritten
        rw [hpc, hwrite]
      refine ⟨?_, ?_, ?_⟩
      · rw [hout, hun, hfound]
        exact h.data
      · rw [hout, hfound]
        exact h.notices
      · rw [hpc, hfound, hwrite]
        exact h.swapped
  | swap ha hpc hs =>
      exact swap_handedOver h (hst.of_swapAhead hpc).2.2 hs
  | check ha now hpc hs => exact check_handedOver h hpc hs
  | write ha i hpc hs =>
      rw [hs]
      exact write_handedOver h hpc
  | quiet ha hq =>
      refine ⟨?_, ?_, fun hpc => ?_⟩
      · rw [hq.output, hq.unwritten, hq.found]
        exact h.data
      · rw [hq.output, hq.found]
        exact h.notices
      · obtain ⟨hpc', hwrite⟩ := hq.swapped hpc
        rw [hq.found, hwrite]
        exact h.swapped hpc'

/-- Everything that holds after the lines `lines` have been appended. -/
structure LogInv (lines : List (List UInt8)) (s : AsyncLogging) : Prop
    extends Stocked s, HandedOver s where
  split : ∃ rounds pend cur, Split lines s rounds pend cur

theorem create_logInv : LogInv [] create :=
  { create_stocked, create_handedOver with split := ⟨[], [], [], create_split⟩ }

theorem run_logInv {acts : List AsyncAct} :
    ∀ {lines : List (List UInt8)} {s : AsyncLogging}, LogInv lines s →
      (∀ l ∈ linesOf acts, l.length < kLargeBuffer) →
      Holds (run step s acts) (LogInv (lines ++ linesOf acts)) := by
  induction acts with
  | nil =>
      intro lines s h _
      exact holds_ok (by rw [linesOf, List.filterMap_nil, List.append_nil]; exact h)
  | cons a acts ih =>
      intro lines s h hshort
      have hcut : linesOf (a :: acts) = linesOf [a] ++ linesOf acts := by
        unfold linesOf
        rw [← List.filterMap_append, List.singleton_append]
      rw [hcut] at hshort ⊢
      obtain ⟨s', hs', hst⟩ := step_stocked h.toStocked a
      obtain ⟨rounds, pend, cur, hsplit⟩ := h.split
      have hinv : LogInv (lines ++ linesOf [a]) s' :=
        { hst, step_handedOver h.toStocked h.toHandedOver hs' with
          split := step_split h.toStocked hsplit
            (fun l hl => hshort l (List.mem_append_left _ hl)) hs' }
      rw [run_cons_ok acts hs', ← List.append_assoc]
      exact ih hinv fun l hl => hshort l (List.mem_append_right _ hl)

/-- Without notices the output is the buffers. -/
theorem bytes_handed : ∀ {output : List LogChunk},
    (∀ text, LogChunk.notice text ∉ output) →
      output.flatMap bytesOf = (handed output).flatten := by
  intro output
  induction output with
  | nil => exact fun _ => rfl
  | cons chunk output ih =>
      intro hnone
      have hrest := ih fun text hmem => hnone text (List.mem_cons_of_mem _ hmem)
      cases chunk with
      | notice text => exact absurd List.mem_cons_self (hnone text)
      | buffer data =>
          rw [List.flatMap_cons, hrest]
          rfl

theorem Split.pending_eq (h : Split lines s rounds pend cur) :
    s.pending = (pend.flatten ++ cur).flatten := by
  unfold pending
  rw [h.current, Option.getD_some, List.flatMap_def, h.buffers,
    List.flatten_append, List.flatten_flatten]

theorem Split.found_eq (h : Split lines s rounds pend cur) :
    s.found.flatten.flatten = rounds.flatten.flatten.flatten := by
  rw [h.found, ← List.map_flatten, List.flatten_flatten]

/-- What was found is kept, as long as no round finds too much. -/
theorem flatMap_kept {α : Type} {found : List (List α)}
    (h : ∀ r ∈ found, r.length ≤ kMaxBuffers) :
    found.flatMap kept = found.flatten := by
  rw [List.flatMap_def]
  congr 1
  refine (List.map_congr_left fun r hr => ?_).trans (List.map_id found)
  exact if_neg (Nat.not_lt.mpr (h r hr))

/-- In every interleaving each line is whole and in order in one buffer.
Of the buffers that a round has found, all are handed over, or the first
two if there are more than 25. As long as no round finds that many, the
output, what is left of the round, `buffers_` and `currentBuffer_` are
the lines. -/
theorem log_conserved (acts : List AsyncAct)
    (hshort : ∀ l ∈ linesOf acts, l.length < kLargeBuffer) :
    ∃ s, run step create acts = .ok s
      ∧ (∃ rounds pend cur, Split (linesOf acts) s rounds pend cur
        ∧ handed s.output ++ s.unwritten.map FixedBuffer.data
          = (rounds.flatMap kept).map List.flatten)
      ∧ ((∀ r ∈ s.found, r.length ≤ kMaxBuffers) →
          s.output.flatMap bytesOf ++ s.unwritten.flatMap FixedBuffer.data
            ++ s.pending = (linesOf acts).flatten) := by
  obtain ⟨s, hrun, h⟩ := run_logInv create_logInv hshort
  rw [List.nil_append] at h
  obtain ⟨rounds, pend, cur, hsplit⟩ := h.split
  refine ⟨s, hrun, ⟨rounds, pend, cur, hsplit, ?_⟩, fun hfew => ?_⟩
  · rw [h.data, hsplit.found, List.flatMap_map, List.map_flatMap]
    congr 1
    funext r
    exact kept_map List.flatten r
  · have hbytes := congrArg List.flatten h.data
    rw [flatMap_kept hfew, List.flatten_append,
      ← bytes_handed (h.notices hfew), hsplit.found_eq] at hbytes
    have hunwritten : s.unwritten.flatMap FixedBuffer.data
        = (s.unwritten.map FixedBuffer.data).flatten := List.flatMap_def
    rw [hunwritten, hbytes, hsplit.pending_eq,
      ← List.flatten_append, ← List.append_assoc, ← hsplit.lines_eq]

/-- One line handed over, one found after the swap. -/
theorem log_conserved_two_lines :
    ∃ s, run step create [.append [1, 2], .start, .opened, .test, .lock, .wake,
        .append [3], .check "now", .write] = .ok s
      ∧ s.output = [.buffer [1, 2]] ∧ s.pending = [3]
      ∧ s.output.flatMap bytesOf ++ s.unwritten.flatMap FixedBuffer.data
          ++ s.pending = [1, 2, 3] := by
  obtain ⟨s, hrun, -, hbytes⟩ := log_conserved
    [.append [1, 2], .start, .opened, .test, .lock, .wake, .append [3],
      .check "now", .write] (by decide)
  obtain ⟨t, ht, hout⟩ := map_ok_inv (show (run step create
    [.append [1, 2], .start, .opened, .test, .lock, .wake, .append [3],
      .check "now", .write]).map (fun s => (s.output, s.pending, s.found))
    = .ok ([.buffer [1, 2]], [3], [[[1, 2]]]) by decide +kernel)
  cases hrun.symm.trans ht
  simp only [Prod.mk.injEq] at hout
  obtain ⟨hout, hpending, hfound⟩ := hout
  exact ⟨s, hrun, hout, hpending, hbytes (by rw [hfound]; decide)⟩

end Cobra.AsyncLogging
