/-
From `append` to the files: in every interleaving of the producers with
the back-end, the files hold whole lines, in the order in which `append`
got the mutex, and what is not in a file yet is in a buffer.

# Cutting twice

`Split` cuts the lines into those of each buffer, and a buffer is handed
over with one `append` to the `LogFile`, which may start a new file behind
it and never inside. So the chunks handed over are cut into those of each
file (`FileCut`), each chunk is a notice or consists of lines, and the two
cuts together give the lines of each file (`exists_pieces`, `Cut.refine`).

# Dropped buffers

A round that finds more than 25 buffers keeps two of them. The lines in
the files are then still a subsequence of those appended, with the notice
where the round was.
-/
import Mathlib.Data.List.Flatten
import Cobra.LogPipeline
import Cobra.Proofs.AsyncStop
import Cobra.Proofs.LogFile

namespace Cobra

open Machine

-- ============================================================ the files

namespace LogFile

variable {s s' : LogFile} {a : LogAppend} {f : OpenFile}
  {bytes : List UInt8} {chunks : List (List UInt8)}

/-- Each file has some of the chunks, whole. -/
def FileCut (chunks : List (List UInt8)) (s : LogFile) : Prop :=
  ∃ cut : List (List (List UInt8)), cut.flatten = chunks
    ∧ s.files.map (·.content) = cut.map List.flatten

/-- The cut of all files but the last, and that of the last one. -/
theorem FileCut.last (h : FileCut chunks s) (hf : s.file = some f) :
    ∃ (cut : List (List (List UInt8))) (group : List (List UInt8)),
      cut.flatten ++ group = chunks
      ∧ s.closed.map (·.content) = cut.map List.flatten
      ∧ f.content = group.flatten := by
  obtain ⟨cut, hcut, hfiles⟩ := h
  rw [files_of hf, List.map_append, List.map_singleton] at hfiles
  rcases List.eq_nil_or_concat cut with rfl | ⟨cut, group, rfl⟩
  · exact absurd hfiles (by simp)
  · rw [List.concat_eq_append, List.map_append, List.map_singleton] at hfiles
    obtain ⟨hclosed, hlast⟩ := List.append_inj' hfiles rfl
    rw [List.concat_eq_append, List.flatten_append, List.flatten_singleton]
      at hcut
    exact ⟨cut, group, hcut, hclosed, List.singleton_inj.1 hlast⟩

/-- A line goes to the last file, as a whole. -/
theorem append_cut (hf : s.file = some f) (hfull : FullWrite a)
    (h : FileCut chunks s) (hs : s.append a = .ok s') :
    FileCut (chunks ++ [a.logline]) s' := by
  obtain ⟨cut, group, hcut, hclosed, hlast⟩ := FileCut.last h hf
  have hcontent : (f.append a.logline a.writes).content
      = (group ++ [a.logline]).flatten := by
    unfold FullWrite at hfull
    rw [OpenFile.append, hfull, List.take_length, hlast, List.flatten_append,
      List.flatten_singleton]
  have hchunks : (cut ++ [group ++ [a.logline]]).flatten
      = chunks ++ [a.logline] := by
    rw [List.flatten_append, List.flatten_singleton, ← List.append_assoc, hcut]
  have hwritten : (s.closed ++ [f.append a.logline a.writes]).map (·.content)
      = (cut ++ [group ++ [a.logline]]).map List.flatten := by
    rw [List.map_append, List.map_append, hclosed, List.map_singleton,
      List.map_singleton, hcontent]
  have hstays : Stays s s' (f.append a.logline a.writes) →
      FileCut (chunks ++ [a.logline]) s' := by
    intro hstays
    refine ⟨_, hchunks, ?_⟩
    rw [files_of hstays.file, hstays.closed]
    exact hwritten
  obtain ⟨-, -, -, heffect⟩ := append_effect hf hs
  cases heffect with
  | rolls hnow hfile hclosed' hlast' hperiod _ =>
      refine ⟨(cut ++ [group ++ [a.logline]]) ++ [[]], ?_, ?_⟩
      · rw [List.flatten_append, hchunks]
        exact List.append_nil _
      · rw [files_of hfile, hclosed', List.map_append, hwritten,
          @List.map_append _ _ List.flatten _ [[]]]
        rfl
  | refused h _ _ => exact hstays h
  | looked h _ _ _ => exact hstays h
  | counted h _ _ _ => exact hstays h

theorem run_cut {as : List LogAppend} :
    ∀ {bytes : List UInt8} {chunks : List (List UInt8)} {s : LogFile},
    FilesInv bytes s → FileCut chunks s → (∀ a ∈ as, FullWrite a) →
    Holds (run append s as) fun s' =>
      FilesInv (bytes ++ as.flatMap (·.logline)) s'
        ∧ FileCut (chunks ++ as.map (·.logline)) s' := by
  induction as with
  | nil =>
      intro bytes chunks s h hcut _
      rw [List.flatMap_nil, List.map_nil, List.append_nil, List.append_nil]
      exact holds_ok ⟨h, hcut⟩
  | cons a as ih =>
      intro bytes chunks s h hcut hfull
      obtain ⟨f, hf, -⟩ := h.current
      obtain ⟨s', hs', h'⟩ := append_files h (hfull a List.mem_cons_self)
      have hcut' := append_cut hf (hfull a List.mem_cons_self) hcut hs'
      rw [run_cons_ok as hs', List.flatMap_cons, List.map_cons,
        ← List.append_assoc, List.append_cons]
      exact ih h' hcut' fun b hb => hfull b (List.mem_cons_of_mem a hb)

/-- A new `LogFile` has one file with nothing in it. -/
theorem create_cut {name : LogName} {rollSize : Nat} {flushInterval now : Int}
    (h : create name rollSize flushInterval now = .ok s) (hnow : 0 < now) :
    FileCut [] s := by
  obtain ⟨_, -, h⟩ := bind_ok_inv h
  cases h
  unfold rollFile
  rw [if_pos hnow]
  exact ⟨[[]], rfl, rfl⟩

end LogFile

-- ========================================================= the back-end

namespace AsyncLogging

variable {s s' : AsyncLogging} {a : AsyncAct}

theorem not_started_iff :
    ¬ s.started ↔ s.pc = .notStarted ∨ s.pc = .opening := by
  unfold started
  rw [not_and_or, Decidable.not_not, Decidable.not_not]

/-- The back-end never gets back to where it started. -/
theorem step_started (h : s.started) (hs : s.step a = .ok s') : s'.started := by
  have hplace : ∀ (pc : BackendPc) (t : AsyncLogging), t.pc = pc →
      pc ≠ .notStarted ∧ pc ≠ .opening → t.started := fun _ _ => started_of
  unfold step at hs
  cases a with
  | append logline =>
      obtain ⟨hpc, -⟩ := append_frame hs
      exact started_of hpc h
  | start =>
      simp only [if_neg h.1] at hs
      cases hs
      exact h
  | stop =>
      simp only [if_neg (not_or.2 h)] at hs
      cases hs
      exact h
  | opened =>
      simp only [if_neg h.2] at hs
      cases hs
      exact h
  | test =>
      simp only at hs
      split at hs
      next =>
        unfold testRunning at hs
        split at hs
        next =>
          obtain ⟨_, -, hs⟩ := bind_ok_inv hs
          obtain ⟨_, -, hs⟩ := bind_ok_inv hs
          obtain ⟨_, -, hs⟩ := bind_ok_inv hs
          cases hs
          exact hplace .locking _ rfl (by decide)
        next =>
          cases hs
          exact hplace .returned _ rfl (by decide)
      next =>
        cases hs
        exact h
  | lock =>
      simp only at hs
      split at hs
      next =>
        split at hs
        next =>
          cases hs
          exact hplace .waiting _ rfl (by decide)
        next => exact started_of (swap_bytes hs).1 (by decide)
      next =>
        cases hs
        exact h
  | wake =>
      simp only at hs
      split at hs
      next => exact started_of (swap_bytes hs).1 (by decide)
      next =>
        cases hs
        exact h
  | check now =>
      simp only at hs
      split at hs
      next => exact started_of (check_frame hs).1 (by decide)
      next =>
        cases hs
        exact h
  | write =>
      simp only at hs
      split at hs
      next i _ =>
        cases hs
        obtain ⟨-, -, -, -, hpc | hpc⟩ := write_frame s i
        · exact started_of hpc ⟨by rintro ⟨⟩, by rintro ⟨⟩⟩
        · exact started_of hpc (by decide)
      next =>
        cases hs
        exact h
  | recycle =>
      simp only at hs
      split at hs
      next =>
        unfold recycle at hs
        obtain ⟨_, -, hs⟩ := bind_ok_inv hs
        obtain ⟨_, -, hs⟩ := bind_ok_inv hs
        cases hs
        exact hplace .test _ rfl (by decide)
      next =>
        cases hs
        exact h

/-- At its start the back-end hands nothing over, and only `opened` gets
it through. -/
theorem step_not_started (h : ¬ s.started) (hs : s.step a = .ok s') :
    s'.output = s.output ∧ (¬ (a = .opened ∧ s.pc = .opening) → ¬ s'.started) := by
  have hpc := not_started_iff.1 h
  have hplace : ∀ pc, pc ≠ .notStarted ∧ pc ≠ .opening → s.pc ≠ pc := by
    rintro pc hne hs
    exact h (started_of hs hne)
  unfold step at hs
  cases a with
  | append logline =>
      obtain ⟨hpc', -, hout, -⟩ := append_frame hs
      refine ⟨hout, fun _ => not_started_iff.2 ?_⟩
      rw [hpc']
      exact hpc
  | start =>
      simp only at hs
      split at hs
      next =>
        cases hs
        exact ⟨rfl, fun _ => not_started_iff.2 (.inr rfl)⟩
      next =>
        cases hs
        exact ⟨rfl, fun _ => h⟩
  | stop =>
      simp only [if_pos hpc] at hs
      cases hs
      exact ⟨rfl, fun _ => h⟩
  | opened =>
      simp only at hs
      split at hs
      next hopening =>
        obtain ⟨_, -, hs⟩ := bind_ok_inv hs
        cases hs
        exact ⟨rfl, fun hnot => absurd ⟨rfl, hopening⟩ hnot⟩
      next =>
        cases hs
        exact ⟨rfl, fun _ => h⟩
  | test =>
      simp only [if_neg (hplace .test (by decide))] at hs
      cases hs
      exact ⟨rfl, fun _ => h⟩
  | lock =>
      simp only [if_neg (hplace .locking (by decide))] at hs
      cases hs
      exact ⟨rfl, fun _ => h⟩
  | wake =>
      simp only [if_neg (hplace .waiting (by decide))] at hs
      cases hs
      exact ⟨rfl, fun _ => h⟩
  | check now =>
      simp only [if_neg (hplace .swapped (by decide))] at hs
      cases hs
      exact ⟨rfl, fun _ => h⟩
  | write =>
      simp only at hs
      split at hs
      next i hwriting =>
        exact absurd hwriting (hplace (.writing i) ⟨by rintro ⟨⟩, by rintro ⟨⟩⟩)
      next =>
        cases hs
        exact ⟨rfl, fun _ => h⟩
  | recycle =>
      simp only [if_neg (hplace .recycling (by decide))] at hs
      cases hs
      exact ⟨rfl, fun _ => h⟩

/-- What was handed over stays. -/
theorem step_output (hs : s.step a = .ok s') :
    ∃ new, s'.output = s.output ++ new := by
  cases step_effect hs with
  | append logline _ hs =>
      obtain ⟨-, -, hout, -⟩ := append_frame hs
      exact ⟨[], by rw [hout, List.append_nil]⟩
  | swap _ _ hs =>
      refine ⟨[], ?_⟩
      rw [List.append_nil]
      unfold swap at hs
      split at hs
      next => cases hs
      next =>
        simp only at hs
        split at hs
        next =>
          cases hs
          rfl
        next =>
          cases hs
          rfl
  | check _ now _ hs =>
      unfold check at hs
      obtain ⟨_, -, hs⟩ := bind_ok_inv hs
      split at hs
      next =>
        cases hs
        exact ⟨_, rfl⟩
      next =>
        cases hs
        exact ⟨[], (List.append_nil _).symm⟩
  | write _ i _ hs =>
      subst hs
      unfold write
      split
      next b _ => exact ⟨[.buffer b.data], rfl⟩
      next => exact ⟨[], (List.append_nil _).symm⟩
  | quiet _ hq => exact ⟨[], by rw [hq.output, List.append_nil]⟩

end AsyncLogging

-- ============================================================ the pieces

section Pieces

open AsyncLogging LogPiece

variable {output : List LogChunk} {groups : List (List (List UInt8))}

/-- The chunks handed over, cut into pieces: a notice is one, a buffer
has those of its lines. -/
theorem exists_pieces : ∀ {output : List LogChunk}
    {groups : List (List (List UInt8))},
    handed output = groups.map List.flatten →
    ∃ pieces : List (List LogPiece),
      pieces.map (List.flatMap bytes) = output.map bytesOf
        ∧ lines pieces.flatten = groups.flatten
        ∧ ∀ text, LogPiece.notice text ∈ pieces.flatten →
            LogChunk.notice text ∈ output := by
  intro output
  induction output with
  | nil =>
      intro groups h
      rw [List.map_eq_nil_iff.1 h.symm]
      exact ⟨[], rfl, rfl, nofun⟩
  | cons chunk output ih =>
      intro groups h
      cases chunk with
      | notice text =>
          obtain ⟨pieces, hbytes, hlines, hnotices⟩ := ih h
          refine ⟨[.notice text] :: pieces, ?_, hlines, fun t ht => ?_⟩
          · rw [List.map_cons, hbytes, List.flatMap_singleton]
            rfl
          · obtain ht | ht := List.mem_cons.1 ht
            · cases ht
              exact List.mem_cons_self
            · exact List.mem_cons_of_mem _ (hnotices t ht)
      | buffer data =>
          obtain ⟨group, groups, rfl, hdata, hrest⟩ :=
            List.map_eq_cons_iff.1 h.symm
          obtain ⟨pieces, hbytes, hlines, hnotices⟩ := ih hrest.symm
          have hgroup : (group.map LogPiece.line).flatMap bytes = data := by
            rw [List.flatMap_map, ← hdata]
            exact List.flatMap_id
          have hsame : lines (group.map LogPiece.line) = group := by
            unfold lines
            rw [List.filterMap_map]
            exact List.filterMap_some
          refine ⟨group.map .line :: pieces, ?_, ?_, fun t ht => ?_⟩
          · rw [List.map_cons, hbytes, hgroup]
            rfl
          · unfold lines at hsame hlines ⊢
            rw [List.flatten_cons, List.filterMap_append, hsame, hlines,
              List.flatten_cons]
          · obtain ht | ht := List.mem_append.1 ht
            · obtain ⟨l, -, hl⟩ := List.mem_map.1 ht
              cases hl
            · exact List.mem_cons_of_mem _ (hnotices t ht)

/-- A cut of the images of some values is one of the values. -/
theorem exists_cut_of_map {α β : Type} {g : α → β} :
    ∀ {cut : List (List β)} {values : List α}, cut.flatten = values.map g →
      ∃ cut' : List (List α), cut'.flatten = values
        ∧ cut'.map (List.map g) = cut := by
  intro cut
  induction cut with
  | nil =>
      intro values h
      rw [List.map_eq_nil_iff.1 h.symm]
      exact ⟨[], rfl, rfl⟩
  | cons group cut ih =>
      intro values h
      obtain ⟨first, rest, rfl, hfirst, hrest⟩ := List.map_eq_append_iff.1 h.symm
      obtain ⟨cut', hcut', hmap⟩ := ih hrest.symm
      refine ⟨first :: cut', ?_, ?_⟩
      · rw [List.flatten_cons, hcut']
      · rw [List.map_cons, hfirst, hmap]

end Pieces

-- ============================================================== the runs

namespace LogPipeline

open AsyncLogging

variable {cfg : LogConfig} {s s' : LogPipeline} {a : AsyncAct × LogEnv}
  {lines : List (List UInt8)}

/-- What holds after the lines `lines` have been appended: the files have
the chunks handed over, and there are files as soon as the back-end is
through its start. -/
structure PipeInv (lines : List (List UInt8)) (s : LogPipeline) : Prop where
  log : LogInv lines s.async
  unopened : s.output = none → s.async.output = [] ∧ ¬ s.async.started
  opened : ∀ f, s.output = some f → s.async.started
    ∧ LogFile.FilesInv (s.async.output.flatMap bytesOf) f
    ∧ LogFile.FileCut (s.async.output.map bytesOf) f

theorem create_pipeInv : PipeInv [] create where
  log := create_logInv
  unopened := fun _ => ⟨rfl, fun h => h.1 rfl⟩
  opened := nofun

/-- The calls of `output.append`, when there is an `output`. -/
theorem outputStep_files {async : AsyncLogging} {f : LogFile} {env : LogEnv}
    (hout : s.output = some f)
    (hfiles : LogFile.FilesInv (s.async.output.flatMap bytesOf) f)
    (hcut : LogFile.FileCut (s.async.output.map bytesOf) f)
    (hnew : async.output = s.async.output ++ newChunks s.async async)
    (hfull : ∀ chunk ∈ newChunks s.async async,
      LogFile.FullWrite (appendOf env chunk)) :
    Holds (s.outputStep async env) fun output => ∃ f', output = some f'
      ∧ LogFile.FilesInv (async.output.flatMap bytesOf) f'
      ∧ LogFile.FileCut (async.output.map bytesOf) f' := by
  have hall : ∀ b ∈ (newChunks s.async async).map (appendOf env),
      LogFile.FullWrite b := by
    intro b hb
    obtain ⟨chunk, hchunk, rfl⟩ := List.mem_map.1 hb
    exact hfull chunk hchunk
  obtain ⟨f', hrun, hfiles', hcut'⟩ := LogFile.run_cut hfiles hcut hall
  have hbytes : ∀ chunks : List LogChunk,
      (chunks.map (appendOf env)).map (·.logline) = chunks.map bytesOf :=
    fun _ => List.map_map
  have hflat : ∀ chunks : List LogChunk,
      (chunks.map (appendOf env)).flatMap (·.logline)
        = chunks.flatMap bytesOf := fun _ => List.flatMap_map ..
  rw [hflat, ← List.flatMap_append, ← hnew] at hfiles'
  rw [hbytes, ← List.map_append, ← hnew] at hcut'
  refine ⟨some f', ?_, f', rfl, hfiles', hcut'⟩
  unfold outputStep
  rw [hout]
  simp only [hrun]
  rfl

theorem step_pipeInv (hname : '/' ∉ cfg.name.basename) (h : PipeInv lines s)
    (hshort : ∀ l ∈ AsyncLogging.linesOf [a.1], l.length < kLargeBuffer)
    (hfull : FullStep s a) :
    Holds (step cfg s a) (PipeInv (lines ++ AsyncLogging.linesOf [a.1])) := by
  obtain ⟨async, hs, hst⟩ := step_stocked h.log.toStocked a.1
  obtain ⟨rounds, pend, cur, hsplit⟩ := h.log.split
  have hlog : LogInv (lines ++ AsyncLogging.linesOf [a.1]) async :=
    { hst, step_handedOver h.log.toStocked h.log.toHandedOver hs with
      split := step_split h.log.toStocked hsplit hshort hs }
  have hchunks : ∀ chunk ∈ newChunks s.async async,
      LogFile.FullWrite (appendOf a.2 chunk) := by
    have hall := hfull.2
    unfold chunksOf at hall
    rw [hs] at hall
    exact hall
  unfold step
  rw [hs]
  simp only [Except.mapError, ok_bind]
  split
  next hopened =>
    obtain ⟨hact, hpc⟩ := hopened
    have hnot : ¬ s.async.started := fun hstart => hstart.2 hpc
    -- nothing can have been handed over yet
    have hempty : async.output = [] := by
      rw [(step_not_started hnot hs).1]
      cases hout : s.output with
      | none => exact (h.unopened hout).1
      | some f => exact absurd (h.opened f hout).1 hnot
    have hstarted : async.started := by
      unfold AsyncLogging.step at hs
      rw [hact] at hs
      simp only [if_pos hpc] at hs
      obtain ⟨_, -, hs⟩ := bind_ok_inv hs
      cases hs
      exact ⟨by rintro ⟨⟩, by rintro ⟨⟩⟩
    have hnow := hfull.1 hact
    obtain ⟨f, hcreate⟩ : ∃ f, LogFile.create cfg.name cfg.rollSize
        LogFile.kFlushInterval a.2.now = .ok f := by
      unfold LogFile.create
      rw [require_bind hname]
      exact ⟨_, rfl⟩
    rw [hcreate]
    refine holds_ok ⟨hlog, by rintro ⟨⟩, fun g hg => ?_⟩
    cases hg
    rw [hempty]
    exact ⟨hstarted, (LogFile.create_inv hcreate hnow).1,
      LogFile.create_cut hcreate hnow⟩
  next hopened =>
    obtain ⟨new, hnew⟩ := step_output hs
    have hnew' : async.output = s.async.output ++ newChunks s.async async := by
      unfold newChunks
      rw [hnew, List.drop_left]
    cases hout : s.output with
    | none =>
        obtain ⟨hempty, hnot⟩ := h.unopened hout
        obtain ⟨hsame, hstill⟩ := step_not_started hnot hs
        have hnone : newChunks s.async async = [] := by
          unfold newChunks
          rw [hsame, List.drop_length]
        have houtput : s.outputStep async a.2 = .ok none := by
          unfold outputStep
          rw [hout]
          exact require_bind hnone _
        rw [houtput]
        refine holds_ok ⟨hlog, fun _ => ⟨?_, hstill hopened⟩, by rintro _ ⟨⟩⟩
        rw [hsame]
        exact hempty
    | some f =>
        obtain ⟨hstart, hfiles, hcut⟩ := h.opened f hout
        obtain ⟨_, houtput, f', rfl, hfiles', hcut'⟩ :=
          outputStep_files hout hfiles hcut hnew' hchunks
        rw [houtput]
        refine holds_ok ⟨hlog, by rintro ⟨⟩, fun g hg => ?_⟩
        cases hg
        exact ⟨step_started hstart hs, hfiles', hcut'⟩

theorem run_pipeInv (hname : '/' ∉ cfg.name.basename)
    {acts : List (AsyncAct × LogEnv)} :
    ∀ {lines : List (List UInt8)} {s : LogPipeline}, PipeInv lines s →
      (∀ l ∈ linesOf acts, l.length < kLargeBuffer) →
      Along (step cfg) FullStep s acts →
      Holds (run (step cfg) s acts) (PipeInv (lines ++ linesOf acts)) := by
  induction acts with
  | nil =>
      intro lines s h _ _
      exact holds_ok (by
        rw [linesOf, AsyncLogging.linesOf, List.map_nil, List.filterMap_nil,
          List.append_nil]
        exact h)
  | cons a acts ih =>
      intro lines s h hshort hfull
      have hcut : linesOf (a :: acts)
          = AsyncLogging.linesOf [a.1] ++ linesOf acts := by
        unfold linesOf AsyncLogging.linesOf
        rw [← List.filterMap_append, List.singleton_append, List.map_cons]
      rw [hcut] at hshort ⊢
      obtain ⟨s', hs', h'⟩ := step_pipeInv hname h
        (fun l hl => hshort l (List.mem_append_left _ hl)) hfull.1
      rw [run_cons_ok acts hs', ← List.append_assoc]
      exact ih h' (fun l hl => hshort l (List.mem_append_right _ hl))
        (hfull.2 s' hs')

/-- What a round keeps is part of what it found. -/
theorem flatMap_kept_sublist {α : Type} (rounds : List (List α)) :
    (rounds.flatMap kept).Sublist rounds.flatten := by
  induction rounds with
  | nil => exact .slnil
  | cons round rounds ih =>
      rw [List.flatMap_cons, List.flatten_cons]
      refine List.Sublist.append ?_ ih
      unfold kept
      split
      next => exact List.take_sublist ..
      next => exact .refl round

/-- In every interleaving of the producers with the back-end each file
holds whole lines and whole notices, and over all files the lines are a
subsequence of those appended, in the order in which `append` got the
mutex. As long as no round finds more than 25 buffers there is no notice,
the lines are the first ones that were appended, and what is in the files,
what is left of the round, `buffers_` and `currentBuffer_` are all of
them. -/
theorem files_hold_lines (cfg : LogConfig) (hname : '/' ∉ cfg.name.basename)
    (acts : List (AsyncAct × LogEnv))
    (hshort : ∀ l ∈ linesOf acts, l.length < kLargeBuffer)
    (hfull : Along (step cfg) FullStep create acts) :
    ∃ s, run (step cfg) create acts = .ok s
      ∧ ∀ f, s.output = some f → ∃ cut : List (List LogPiece),
        f.files.map (·.content) = cut.map (List.flatMap LogPiece.bytes)
          ∧ (LogPiece.lines cut.flatten).Sublist (linesOf acts)
          ∧ ((∀ r ∈ s.async.found, r.length ≤ kMaxBuffers) →
              (∀ text, LogPiece.notice text ∉ cut.flatten)
                ∧ LogPiece.lines cut.flatten <+: linesOf acts
                ∧ f.files.flatMap (·.content)
                    ++ s.async.unwritten.flatMap FixedBuffer.data
                    ++ s.async.pending = (linesOf acts).flatten) := by
  obtain ⟨s, hrun, h⟩ := run_pipeInv hname create_pipeInv hshort hfull
  rw [List.nil_append] at h
  refine ⟨s, hrun, fun f hf => ?_⟩
  obtain ⟨-, hfiles, chunkCut, hflat, hcontent⟩ := h.opened f hf
  obtain ⟨rounds, pend, cur, hsplit⟩ := h.log.split
  -- the buffers handed over are the first of those kept
  obtain ⟨handedOver, left, hkept, hhanded, -⟩ : ∃ l₁ l₂,
      rounds.flatMap kept = l₁ ++ l₂
        ∧ l₁.map List.flatten = handed s.async.output
        ∧ l₂.map List.flatten = s.async.unwritten.map FixedBuffer.data := by
    refine List.map_eq_append_iff.1 (Eq.trans ?_ h.log.data.symm)
    rw [hsplit.found, List.flatMap_map, List.map_flatMap]
    congr 1
    funext r
    exact (kept_map List.flatten r).symm
  obtain ⟨pieces, hbytes, hlines, hnotices⟩ := exists_pieces hhanded.symm
  obtain ⟨cut, hcut, hmap⟩ := exists_cut_of_map (hflat.trans hbytes.symm)
  have hpieces : (cut.map List.flatten).flatten = pieces.flatten := by
    rw [← List.flatten_flatten, hcut]
  refine ⟨cut.map List.flatten, ?_, ?_, fun hfew => ⟨?_, ?_, ?_⟩⟩
  · rw [hcontent, ← hmap, List.map_map, List.map_map]
    refine List.map_congr_left fun group _ => ?_
    simp only [Function.comp_apply, List.flatMap_def, List.flatten_flatten,
      List.map_flatten, List.map_map]
    rfl
  · rw [hpieces, hlines, hsplit.lines_eq, List.append_assoc]
    have hfirst : handedOver.flatten.Sublist (rounds.flatMap kept).flatten := by
      rw [hkept, List.flatten_append]
      exact List.sublist_append_left ..
    have hround : (rounds.flatMap kept).flatten.Sublist rounds.flatten.flatten :=
      (flatMap_kept_sublist rounds).flatten
    exact (hfirst.trans hround).trans (List.sublist_append_left ..)
  · intro text hmem
    rw [hpieces] at hmem
    exact h.log.notices hfew text (hnotices text hmem)
  · have hall : rounds.flatMap kept = rounds.flatten := by
      refine flatMap_kept fun r hr => ?_
      have hlen := hfew (r.map List.flatten) (by
        rw [hsplit.found]
        exact List.mem_map_of_mem hr)
      rw [List.length_map] at hlen
      exact hlen
    rw [hpieces, hlines, hsplit.lines_eq, ← hall, hkept, List.flatten_append,
      List.append_assoc, List.append_assoc]
    exact List.prefix_append ..
  · have hdata := congrArg List.flatten h.log.data
    rw [flatMap_kept hfew, List.flatten_append,
      ← bytes_handed (h.log.notices hfew), hsplit.found_eq,
      ← List.flatMap_def] at hdata
    rw [hfiles.content, hdata, hsplit.pending_eq, ← List.flatten_append,
      ← List.append_assoc, ← hsplit.lines_eq]

/-- Two rounds, each of which ends its file, and a line behind them. -/
def twoRounds : List (AsyncAct × LogEnv) :=
  let idle : LogEnv := ⟨[], 0, 0, 0⟩
  [(.append [1, 2], idle), (.append [3], idle), (.start, idle),
    (.opened, ⟨[], 10, 10, 10⟩), (.test, idle), (.lock, idle), (.wake, idle),
    (.check "", idle), (.append [4], idle), (.write, ⟨[2, 1], 11, 11, 11⟩),
    (.write, idle), (.recycle, idle), (.test, idle), (.lock, idle),
    (.wake, idle), (.check "", idle), (.write, ⟨[1], 12, 12, 12⟩),
    (.append [5], idle)]

/-- The first file has two lines, the second one, and one is in no file
yet. -/
theorem files_hold_lines_two_rounds :
    ∃ s, run (step ⟨⟨['a'], ['h'], 7⟩, 0⟩) create twoRounds = .ok s
      ∧ ∃ (f : LogFile) (cut : List (List LogPiece)), s.output = some f
        ∧ f.files.map (·.content) = [[1, 2, 3], [4], []]
        ∧ f.files.map (·.content) = cut.map (List.flatMap LogPiece.bytes)
        ∧ LogPiece.lines cut.flatten <+: [[1, 2], [3], [4], [5]] := by
  obtain ⟨s, hrun, hcut⟩ := files_hold_lines ⟨⟨['a'], ['h'], 7⟩, 0⟩ (by decide)
    twoRounds (by decide) (along_of_check (by decide +kernel))
  obtain ⟨t, ht, hout, hfew⟩ : Holds
      (run (step ⟨⟨['a'], ['h'], 7⟩, 0⟩) create twoRounds) fun s =>
        s.output.map (fun f => f.files.map (·.content))
            = some [[1, 2, 3], [4], []]
          ∧ ∀ r ∈ s.async.found, r.length ≤ kMaxBuffers := by
    decide +kernel
  cases hrun.symm.trans ht
  obtain ⟨f, hf, hcontent⟩ := Option.map_eq_some_iff.1 hout
  obtain ⟨cut, hfiles, -, hrest⟩ := hcut f hf
  obtain ⟨-, hprefix, -⟩ := hrest hfew
  exact ⟨s, hrun, f, cut, hf, hcontent, hfiles, hprefix⟩

end LogPipeline

end Cobra
