/-
Which timers a `handleRead` runs, in which order, and when a repeating
timer comes again.

# The clock

`Timestamp::now()` is the wall clock, so nothing here takes it to be
monotone: the machine is `wallStep`, in which the clock can be set to any
time between two actions.

# The batch

`getExpired` cuts `timers_` at the pair of `now` and the largest address
(`dueBatch_of_expired`). `CallInv` follows the call from there: the
callbacks may do what they like to the queue, the batch is out of their
reach, so what has been started and what is left of the batch are the
batch together (`callInv_wall`), and when the call returns nothing is
left.

# The next firing

After a firing at `now` of a timer with the interval `d`, no place the
timer can be in lets it run before `now + d` (`NotBefore`): out of its
batch it comes only through `restart`. That holds as long as `addTime`
stays in the range of `int64_t`. It wraps where it does not, to a time in
the distant past, and the timer is due at once
(`wrapped_restart_fires_early`).
-/
import Cobra.Proofs.TimerQueue

namespace Cobra

-- =================================================== sums of timestamps

/-- A sum that does not exceed the range is not below its true value. -/
theorem le_micros_addTime {now : Timestamp} {delta : Int64}
    (h : now.micros + delta.toInt < 2 ^ 63) :
    now.micros + delta.toInt ≤ (addTime now delta).micros := by
  have hadd : (addTime now delta).micros
      = (now.micros + delta.toInt).bmod (2 ^ 64) := Int64.toInt_add ..
  have hnow : -2 ^ 63 ≤ now.micros := Int64.le_toInt _
  have hdelta : -2 ^ 63 ≤ delta.toInt := Int64.le_toInt _
  rw [hadd, Int.bmod_def]
  split <;> omega

namespace TimerLoop

open Machine TimerQueue

variable {L L' : TimerLoop}

-- ============================================================ the batch

/-- What `getExpired` is to return at the time `now`, and to leave
behind. -/
structure DueBatch (q : TimerQueue) (now : Timestamp) (expired : List Entry)
    (q' : TimerQueue) : Prop where
  due : ∀ e, e ∈ expired ↔ e ∈ q.timers ∧ e.when_ ≤ now
  left : ∀ e, e ∈ q'.timers ↔ e ∈ q.timers ∧ now < e.when_
  expiration : ∀ e ∈ q.timers, ∃ t, q.heap e.timer = some t
    ∧ t.expiration = e.when_
  sorted : (expired.map Entry.when_).Pairwise (· ≤ ·)
  nodup : (expired.map Entry.timer).Nodup

theorem dueBatch_of_expired {q q' : TimerQueue} {now : Timestamp}
    {expired : List Entry} (h : Consistent q)
    (hq : Expired q now expired q') : DueBatch q now expired q' where
  due := hq.due
  left := hq.left
  expiration := by
    intro e he
    obtain ⟨t, ht, hw, -⟩ := h.timers e he
    exact ⟨t, ht, hw⟩
  sorted := by
    rw [List.pairwise_map]
    exact hq.sorted.imp fun hlt => Entry.when_le_of_le hlt.le
  nodup := hq.nodup

-- ============================================================= the call

/-- The identifiers of the timers of these entries. -/
def ids (q : TimerQueue) (es : List Entry) : List TimerId :=
  es.filterMap fun e => (q.heap e.timer).map fun t => ⟨e.timer, t.sequence⟩

/-- The callback that an entry of the log says was started. -/
def startedId : TimerObs → Option TimerId
  | .started id => some id
  | .issued _ => none
  | .inserted _ => none
  | .cancelled _ => none

/-- The callbacks started, in order. -/
def startedIds (obs : List TimerObs) : List TimerId := obs.filterMap startedId

theorem ids_cons {q : TimerQueue} {e : Entry} {es : List Entry} {t : Timer}
    (ht : q.heap e.timer = some t) :
    ids q (e :: es) = ⟨e.timer, t.sequence⟩ :: ids q es := by
  unfold ids
  rw [List.filterMap_cons, ht]
  rfl

theorem startedIds_append (obs new : List TimerObs) :
    startedIds (obs ++ new) = startedIds obs ++ startedIds new :=
  List.filterMap_append

/-- Inside a `handleRead`, an action that is not its end runs the next
timer of the batch, or no timer. -/
theorem quiet_or_run {a : TimerAct} {f : HandleRead} (hm : Moves L a L')
    (hf : L.frame = some f) (ha : a ≠ .endRead) :
    (L'.frame = some f
        ∧ ∃ new, L'.obs = L.obs ++ new ∧ startedIds new = [])
      ∨ ∃ e rest t, f.rest = e :: rest ∧ L.queue.heap e.timer = some t
        ∧ L'.frame = some ⟨f.now, f.expired, rest⟩
        ∧ L'.obs = L.obs ++ [.started ⟨e.timer, t.sequence⟩] := by
  have hsame : ∀ {L' : TimerLoop}, L'.frame = L.frame → L'.obs = L.obs →
      L'.frame = some f
        ∧ ∃ new, L'.obs = L.obs ++ new ∧ startedIds new = [] := by
    intro L' hfr hobs
    exact ⟨hfr.trans hf, [], by rw [hobs, List.append_nil], rfl⟩
  cases hm with
  | stay => exact .inl (hsame rfl rfl)
  | tick t => exact .inl (hsame rfl rfl)
  | new p w r d hp hfree => exact .inl ⟨hf, _, rfl, rfl⟩
  | add p t hp ht => exact .inl ⟨hf, _, rfl, rfl⟩
  | drop id t hid ht => exact .inl ⟨hf, _, rfl, rfl⟩
  | mark id hid f' hf' => exact .inl ⟨hf, _, rfl, rfl⟩
  | miss id hid hf' => exact .inl ⟨hf, _, rfl, rfl⟩
  | begin hf' expired q hq =>
      rw [hf] at hf'
      cases hf'
  | run now expired e rest t hf' ht =>
      rw [hf] at hf'
      cases hf'
      exact .inr ⟨e, rest, t, rfl, ht, rfl, rfl⟩
  | finish now expired q hf' hr => exact absurd rfl ha

/-- Until the end of the call, the callbacks cannot touch the objects of
the batch. -/
theorem heap_batch {a : TimerAct} {f : HandleRead} {e : Entry}
    (hinv : LoopInv L) (hm : Moves L a L') (hf : L.frame = some f)
    (ha : a ≠ .endRead) (he : e ∈ f.expired) :
    L'.queue.heap e.timer = L.queue.heap e.timer := by
  have hb := hinv.batch f hf
  cases hm with
  | stay => rfl
  | tick t => rfl
  | mark id hid f' hf' => rfl
  | miss id hid hf' => rfl
  | run now expired e' rest t hf' ht => rfl
  | new p w r d hp hfree =>
      exact heap_newTimer_of_ne w r d (ne_of_live hfree (hb.live e he))
  | add p t hp ht =>
      obtain ⟨-, -, hheap, -⟩ := added_frame L.queue L.clock p t
      exact congrFun hheap e.timer
  | drop id t hid ht =>
      apply heap_dropped_of_ne t
      intro hp
      apply hb.idle e he
      rw [hp]
      exact ⟨_, hid⟩
  | begin hf' expired q hq =>
      rw [hf] at hf'
      cases hf'
  | finish now expired q hf' hr => exact absurd rfl ha

/-- The call of `handleRead` that `L₀` made at `now` is at `L`. -/
structure CallInv (L₀ : TimerLoop) (now : Timestamp) (expired : List Entry)
    (L : TimerLoop) : Prop where
  inv : LoopInv L
  heap : ∀ e ∈ expired, L.queue.heap e.timer = L₀.queue.heap e.timer
  ran : ∃ rest new, L.frame = some ⟨now, expired, rest⟩
    ∧ L.obs = L₀.obs ++ new
    ∧ startedIds new ++ ids L₀.queue rest = ids L₀.queue expired

theorem callInv_moves {L₀ : TimerLoop} {now : Timestamp}
    {expired : List Entry} {a : TimerAct} (h : CallInv L₀ now expired L)
    (hm : Moves L a L') (ha : a ≠ .endRead) : CallInv L₀ now expired L' := by
  obtain ⟨hinv, hheap, rest, new, hf, hobs, hran⟩ := h
  refine ⟨loopInv_moves hinv hm, fun e he => ?_, ?_⟩
  · rw [heap_batch hinv hm hf ha he]
    exact hheap e he
  · rcases quiet_or_run hm hf ha with ⟨hf', new', hobs', hquiet⟩
      | ⟨e, rest', t, hrest, ht, hf', hobs'⟩
    · refine ⟨rest, new ++ new', hf', ?_, ?_⟩
      · rw [hobs', hobs, List.append_assoc]
      · rw [startedIds_append, hquiet, List.append_nil]
        exact hran
    · have hrest' : rest = e :: rest' := hrest
      have he : e ∈ expired := (hinv.batch _ hf).mem_next hrest
      refine ⟨rest', new ++ [.started ⟨e.timer, t.sequence⟩], hf', ?_, ?_⟩
      · rw [hobs', hobs, List.append_assoc]
      · -- the identifier moves from what is left to what was started
        rw [hheap e he] at ht
        rw [hrest', ids_cons ht] at hran
        rw [startedIds_append, List.append_assoc]
        exact hran

theorem callInv_wall {L₀ : TimerLoop} {now : Timestamp}
    {expired : List Entry} {a : WallAct} (h : CallInv L₀ now expired L)
    (hm : WallMoves L a L') (ha : a ≠ .act .endRead) :
    CallInv L₀ now expired L' := by
  cases hm with
  | set t => exact ⟨h.inv.setClock t, h.heap, h.ran⟩
  | act a L' hm => exact callInv_moves h hm fun he => ha (congrArg _ he)

/-- However long the callbacks go on. -/
theorem callInv_run {L₀ : TimerLoop} {now : Timestamp}
    {expired : List Entry} {body : List WallAct}
    (h : CallInv L₀ now expired L) (hbody : .act .endRead ∉ body)
    (hrun : run wallStep L body = .ok L') : CallInv L₀ now expired L' := by
  induction body generalizing L with
  | nil =>
      cases hrun
      exact h
  | cons a body ih =>
      obtain ⟨hne, hbody'⟩ := not_or.1 (mt List.mem_cons.2 hbody)
      obtain ⟨L₁, hok, hrun'⟩ := run_cons_inv hrun
      exact ih (callInv_wall h (wallMoves_of_ok h.inv hok) (Ne.symm hne))
        hbody' hrun'

/-- What a call of `handleRead` at the time `now` starts: the batch, front
to back, and nothing else. The `body` is what happens between the start
of the call and its end: the loop over the batch, and what the callbacks
and other threads do meanwhile. -/
structure CallRuns (L : TimerLoop) (now : Timestamp) (expired : List Entry) :
    Prop where
  soFar : ∀ body L', .act .endRead ∉ body →
    run wallStep L (.set now :: .act .beginRead :: body) = .ok L' →
    ∃ new, L'.obs = L.obs ++ new ∧ startedIds new <+: ids L.queue expired
  returned : ∀ body L', .act .endRead ∉ body →
    run wallStep L (.set now :: .act .beginRead :: (body ++ [.act .endRead]))
      = .ok L' → L'.frame = none →
    ∃ new, L'.obs = L.obs ++ new ∧ startedIds new = ids L.queue expired
  returns : ∀ body L', .act .endRead ∉ body →
    run wallStep L (.set now :: .act .beginRead :: body) = .ok L' →
    ∃ n L'', run wallStep L'
        (List.replicate n (.act .runNext) ++ [.act .endRead]) = .ok L''
      ∧ L''.frame = none

/-- The batch is what lies below the sentry. -/
theorem getExpired_batch {q q' : TimerQueue} {now : Timestamp}
    {expired : List Entry} (h : q.getExpired now = .ok (expired, q')) :
    expired = q.timers.below ⟨now, UINTPTR_MAX⟩ := by
  unfold getExpired at h
  obtain ⟨-, -, h⟩ := bind_ok_inv h
  obtain ⟨-, -, h⟩ := bind_ok_inv h
  obtain ⟨q₁, -, h⟩ := bind_ok_inv h
  obtain ⟨-, -, h⟩ := bind_ok_inv h
  cases h
  rfl

/-- A call starts with the whole batch before it. -/
theorem callInv_begin {now : Timestamp} {expired : List Entry}
    {q : TimerQueue} (h : LoopInv L) (hf : L.frame = none)
    (hget : L.queue.getExpired now = .ok (expired, q)) :
    ∃ L', (∀ body, run wallStep L (.set now :: .act .beginRead :: body)
        = run wallStep L' body) ∧ CallInv L now expired L' := by
  obtain ⟨expired', q', hget', hexp⟩ := getExpired_ok
    (q := { L.queue with timerfd := readTimerfd L.queue.timerfd now })
    (h.sets.congr rfl rfl rfl) now h.bound
  -- the read of the timerfd makes no difference to it
  have hbatch : expired' = expired := by
    rw [getExpired_batch hget, getExpired_batch hget']
  subst hbatch
  have hok : { L with clock := now }.wallStep (.act .beginRead) = .ok
      { L with
        clock := now
        queue := { q' with
          callingExpiredTimers := true
          cancelingTimers := .empty }
        frame := some ⟨now, expired', expired'⟩ } := by
    simp only [wallStep, step, hf, beginRead, hget', ok_bind]
  refine ⟨_, fun body => ?_, loopInv_begin (h.setClock now) hf hexp,
    fun e he => ?_, expired', [], rfl, (List.append_nil _).symm, rfl⟩
  · rw [run_cons_ok (.act .beginRead :: body) (show L.wallStep (.set now)
      = .ok { L with clock := now } from rfl)]
    exact run_cons_ok body hok
  · exact congrFun hexp.heap e.timer

/-- The end of a call: the batch has been run, and nothing is logged. -/
theorem endRead_inv (hok : L.wallStep (.act .endRead) = .ok L')
    (hf : L.frame ≠ none) (hf' : L'.frame = none) :
    ∃ now expired, L.frame = some ⟨now, expired, []⟩ ∧ L'.obs = L.obs := by
  simp only [wallStep, step] at hok
  split at hok
  next now expired hfr =>
    unfold endRead at hok
    obtain ⟨q, -, hq⟩ := bind_ok_inv hok
    cases hq
    exact ⟨now, expired, hfr, rfl⟩
  next =>
    cases hok
    exact absurd hf' hf

/-- From anywhere in the call, the loop over the batch goes on to the end
of it and the call returns. -/
theorem call_returns : ∀ (rest : List Entry) {L : TimerLoop}
    {now : Timestamp} {expired : List Entry}, LoopInv L →
    L.frame = some ⟨now, expired, rest⟩ →
    ∃ L', run wallStep L (List.replicate rest.length (.act .runNext)
        ++ [.act .endRead]) = .ok L' ∧ L'.frame = none := by
  intro rest
  induction rest with
  | nil =>
      intro L now expired h hf
      obtain ⟨L', hok, -⟩ := step_moves h .endRead
      refine ⟨L', run_cons_ok [] (show L.wallStep (.act .endRead) = .ok L'
        from hok), ?_⟩
      simp only [step, hf, endRead] at hok
      obtain ⟨q, -, hq⟩ := bind_ok_inv hok
      cases hq
      rfl
  | cons e rest ih =>
      intro L now expired h hf
      obtain ⟨L₁, hok, hm⟩ := step_moves h .runNext
      have hf₁ : L₁.frame = some ⟨now, expired, rest⟩ := by
        simp only [step, hf] at hok
        obtain ⟨id, -, hid⟩ := bind_ok_inv hok
        cases hid
        rfl
      obtain ⟨L', hrun, hf'⟩ := ih (loopInv_moves h hm) hf₁
      refine ⟨L', ?_, hf'⟩
      rw [List.length_cons, List.replicate_succ, List.cons_append,
        run_cons_ok _ (show L.wallStep (.act .runNext) = .ok L₁ from hok)]
      exact hrun

theorem callRuns_of_getExpired {now : Timestamp} {expired : List Entry}
    {q : TimerQueue} (h : LoopInv L) (hf : L.frame = none)
    (hget : L.queue.getExpired now = .ok (expired, q)) :
    CallRuns L now expired := by
  obtain ⟨L₁, hbegin, h₁⟩ := callInv_begin h hf hget
  constructor
  case soFar =>
      intro body L' hbody hrun
      rw [hbegin] at hrun
      obtain ⟨rest, new, -, hobs, hran⟩ := (callInv_run h₁ hbody hrun).ran
      exact ⟨new, hobs, _, hran⟩
  case returned =>
      intro body L' hbody hrun hf'
      rw [hbegin] at hrun
      obtain ⟨L₂, hrun₂, -⟩ := loopInv_wallRun h₁.inv body
      have h₂ := callInv_run h₁ hbody hrun₂
      rw [run_append _ hrun₂] at hrun
      obtain ⟨L₃, hok, hdone⟩ := run_cons_inv hrun
      cases hdone
      obtain ⟨rest, new, hfr, hobs, hran⟩ := h₂.ran
      obtain ⟨now', expired', hend, hobs'⟩ := endRead_inv hok
        (by rw [hfr]; exact Option.some_ne_none _) hf'
      rw [hfr] at hend
      cases hend
      refine ⟨new, hobs'.trans hobs, ?_⟩
      rw [← hran]
      exact (List.append_nil _).symm
  case returns =>
      intro body L' hbody hrun
      rw [hbegin] at hrun
      have h' := callInv_run h₁ hbody hrun
      obtain ⟨rest, new, hfr, -, -⟩ := h'.ran
      obtain ⟨L'', hrun', hf''⟩ := call_returns rest h'.inv hfr
      exact ⟨rest.length, L'', hrun', hf''⟩

-- ====================================================== the next firing

/-- The next thing `handleRead` does, in a call made at `now`, is to run
the timer `t`, whose identifier is `id`. -/
def Fires (L : TimerLoop) (now : Timestamp) (id : TimerId) (t : Timer) :
    Prop :=
  ∃ expired e rest, L.frame = some ⟨now, expired, e :: rest⟩
    ∧ L.queue.heap e.timer = some t ∧ id = ⟨e.timer, t.sequence⟩

/-- The timer `t` at `p`, with the interval `d`, does not run before `b`,
wherever it is: in the queue, in the batch with its callback to come, or
in the batch with its callback behind it. -/
structure TimerNotBefore (L : TimerLoop) (p : Nat) (t : Timer) (d b : Int) :
    Prop where
  delta : t.delta.toInt = d
  notFresh : p ∉ L.fresh
  active : Active L.queue p → b ≤ t.expiration.micros
  awaits : ∀ f, L.frame = some f → p ∈ f.rest.map Entry.timer →
    b ≤ f.now.micros
  ran : ∀ f, L.frame = some f → p ∈ f.expired.map Entry.timer →
    p ∉ f.rest.map Entry.timer → b ≤ f.now.micros + d

/-- The identifier's timer does not run before `b`, while it exists. -/
def NotBefore (L : TimerLoop) (id : TimerId) (d b : Int) : Prop :=
  id.sequence ≤ L.queue.numCreated
    ∧ ∀ t, L.queue.heap id.timer = some t → t.sequence = id.sequence →
      TimerNotBefore L id.timer t d b

theorem TimerNotBefore.congr {p : Nat} {t : Timer} {d b : Int}
    (h : TimerNotBefore L p t d b) (hfr : p ∈ L'.fresh → p ∈ L.fresh)
    (hact : Active L'.queue p → Active L.queue p)
    (hf : L'.frame = L.frame) : TimerNotBefore L' p t d b where
  delta := h.delta
  notFresh := fun hp => h.notFresh (hfr hp)
  active := fun hp => h.active (hact hp)
  awaits := by rw [hf]; exact h.awaits
  ran := by rw [hf]; exact h.ran

/-- Any move but those of `handleRead` leaves the bound alone: it does not
bring the timer back, and it does not reach it in the batch. -/
theorem NotBefore.congr {id : TimerId} {d b : Int} (h : NotBefore L id d b)
    (hn : L.queue.numCreated ≤ L'.queue.numCreated)
    (hh : ∀ t, L'.queue.heap id.timer = some t → t.sequence = id.sequence →
      L.queue.heap id.timer = some t ∧ (id.timer ∈ L'.fresh →
        id.timer ∈ L.fresh) ∧ (Active L'.queue id.timer →
          Active L.queue id.timer))
    (hf : L'.frame = L.frame) : NotBefore L' id d b := by
  refine ⟨h.1.trans hn, fun t ht hs => ?_⟩
  obtain ⟨ht', hfr, hact⟩ := hh t ht hs
  exact (h.2 t ht' hs).congr hfr hact hf

/-- A move into the batch: what is due is due no earlier than its
expiration. -/
theorem notBefore_begin {id : TimerId} {d b : Int} {expired : List Entry}
    {q : TimerQueue} (hinv : LoopInv L)
    (hq : Expired
      { L.queue with timerfd := readTimerfd L.queue.timerfd L.clock }
      L.clock expired q)
    (h : NotBefore L id d b) :
    NotBefore { L with
      queue := { q with
        callingExpiredTimers := true
        cancelingTimers := .empty }
      frame := some ⟨L.clock, expired, expired⟩ } id d b := by
  refine ⟨h.1.trans hq.numCreated.ge, fun t ht hs => ?_⟩
  have ht' : L.queue.heap id.timer = some t := by
    rw [← show q.heap = L.queue.heap from hq.heap]
    exact ht
  have hb := h.2 t ht' hs
  constructor
  case delta => exact hb.delta
  case notFresh => exact hb.notFresh
  case active => exact fun hp => hb.active ((hq.active _).1 hp).1
  case awaits =>
      intro f hf hmem
      cases hf
      obtain ⟨e, he, hp⟩ := List.mem_map.1 hmem
      obtain ⟨hin, hdue⟩ := (hq.due e).1 he
      rw [← hp] at ht'
      have hw := (hinv.sets.mem_timers hin ht').1
      have hact : Active L.queue id.timer := by
        rw [← hp]
        exact hinv.sets.active_of_mem hin
      rw [← hw] at hdue
      exact (hb.active hact).trans (Timestamp.le_def.1 hdue)
  case ran =>
      intro f hf hin hnot
      cases hf
      exact absurd hin hnot

/-- The callback of another timer of the batch, or the timer's own: that
one either leaves the bound in force, when the interval is not negative,
or is a firing. -/
theorem notBefore_run {id : TimerId} {d b : Int} {now : Timestamp}
    {expired rest : List Entry} {e : Entry} {t : Timer} {obs : List TimerObs}
    (hf : L.frame = some ⟨now, expired, e :: rest⟩)
    (ht : L.queue.heap e.timer = some t) (h : NotBefore L id d b)
    (hd : 0 ≤ d ∨ id ≠ ⟨e.timer, t.sequence⟩) :
    NotBefore { L with frame := some ⟨now, expired, rest⟩, obs := obs }
      id d b := by
  refine ⟨h.1, fun t' ht' hs => ?_⟩
  have hb := h.2 t' ht' hs
  refine ⟨hb.delta, hb.notFresh, hb.active, fun f hf' hmem => ?_,
    fun f hf' hin hnot => ?_⟩
  · cases hf'
    exact hb.awaits ⟨now, expired, e :: rest⟩ hf
      (List.mem_cons_of_mem _ hmem)
  · cases hf'
    by_cases hp : id.timer = e.timer
    · -- it was the next in line
      have hnow : b ≤ now.micros := by
        refine hb.awaits ⟨now, expired, e :: rest⟩ hf ?_
        rw [hp]
        exact List.mem_cons_self ..
      rcases hd with hd | hne
      · show b ≤ now.micros + d
        omega
      · exfalso
        apply hne
        rw [hp, ht] at ht'
        cases ht'
        cases id
        simp only at hp hs
        rw [hp, hs]
    · refine hb.ran ⟨now, expired, e :: rest⟩ hf hin fun hmem => ?_
      rcases List.mem_cons.1 hmem with he | hmem
      · exact hp he
      · exact hnot hmem

/-- The way out of the batch: `restart`, in the range of the type. -/
theorem notBefore_finish {id : TimerId} {d b : Int} {now : Timestamp}
    {expired : List Entry} {q : TimerQueue} (hinv : LoopInv L)
    (hf : L.frame = some ⟨now, expired, []⟩)
    (hr : Reset { L.queue with callingExpiredTimers := false }
      now expired q)
    (hrange : ∀ e ∈ expired, ∀ t, L.queue.heap e.timer = some t →
      L.queue.Kept e.timer t → now.micros + t.delta.toInt < 2 ^ 63)
    (h : NotBefore L id d b) :
    NotBefore { L with queue := q.rearmed L.clock, frame := none } id d b := by
  obtain ⟨-, hact, hheap, hnum, -⟩ := rearmed_frame q L.clock
  have hactive : Active (q.rearmed L.clock) id.timer → Active q id.timer := by
    intro hp
    unfold Active at hp ⊢
    rw [hact] at hp
    exact hp
  refine ⟨h.1.trans (hnum.trans hr.numCreated).ge, fun t ht hs => ?_⟩
  rw [show (q.rearmed L.clock).heap = q.heap from hheap] at ht
  by_cases hp : id.timer ∈ expired.map Entry.timer
  · obtain ⟨e, he, hpe⟩ := List.mem_map.1 hp
    obtain ⟨t₀, ht₀⟩ := (hinv.batch _ hf).live e he
    by_cases hk : L.queue.Kept e.timer t₀
    · obtain ⟨hkt, -⟩ := hr.kept e he t₀ ht₀ hk
      have hrestart : t = { t₀ with expiration := addTime now t₀.delta } := by
        rw [← hpe, hkt] at ht
        cases ht
        unfold Timer.restart
        rw [if_pos hk.1]
      subst hrestart
      rw [hpe] at ht₀
      have hb := h.2 t₀ ht₀ hs
      refine ⟨hb.delta, hb.notFresh, fun _ => ?_, nofun, nofun⟩
      have hran : b ≤ now.micros + d :=
        hb.ran ⟨now, expired, []⟩ hf hp List.not_mem_nil
      rw [← hb.delta] at hran
      rw [← hpe] at ht₀
      exact hran.trans (le_micros_addTime (hrange e he t₀ ht₀ hk))
    · rw [← hpe, hr.gone e he t₀ ht₀ hk] at ht
      cases ht
  · rw [hr.other _ hp] at ht
    have hb := h.2 t ht hs
    refine ⟨hb.delta, hb.notFresh, fun hq => ?_, nofun, nofun⟩
    exact hb.active ((hr.active _ hp).1 (hactive hq))

/-- No step of the machine lets `addTime` exceed the range of `int64_t`:
at the end of a call, for every timer of the batch that is restarted, the
time of the call and the interval add up to one of its values. -/
def RestartsInRange (L : TimerLoop) (a : WallAct) : Prop :=
  a = .act .endRead → ∀ f, L.frame = some f → f.rest = [] →
    ∀ e ∈ f.expired, ∀ t, L.queue.heap e.timer = some t →
      L.queue.Kept e.timer t → f.now.micros + t.delta.toInt < 2 ^ 63

/-- The log only grows. -/
theorem obs_moves {a : TimerAct} (hm : Moves L a L') :
    ∃ new, L'.obs = L.obs ++ new := by
  cases hm with
  | stay => exact ⟨[], (List.append_nil _).symm⟩
  | tick t => exact ⟨[], (List.append_nil _).symm⟩
  | new p w r d hp hfree => exact ⟨_, rfl⟩
  | add p t hp ht => exact ⟨_, rfl⟩
  | drop id t hid ht => exact ⟨_, rfl⟩
  | mark id hid f hf => exact ⟨_, rfl⟩
  | miss id hid hf => exact ⟨_, rfl⟩
  | begin hf expired q hq => exact ⟨[], (List.append_nil _).symm⟩
  | run now expired e rest t hf ht => exact ⟨_, rfl⟩
  | finish now expired q hf hr => exact ⟨[], (List.append_nil _).symm⟩

/-- One action keeps the bound, unless it is the timer's next firing and
the interval is negative. -/
theorem notBefore_moves {id : TimerId} {d b : Int} {a : TimerAct}
    (hinv : LoopInv L) (hm : Moves L a L')
    (hC : RestartsInRange L (.act a)) (h : NotBefore L id d b) :
    NotBefore L' id d b ∨ d < 0 ∧ L'.obs = L.obs ++ [.started id] := by
  cases hm with
  | stay => exact .inl h
  | tick t => exact .inl (h.congr (Nat.le_refl _)
      (fun _ ht _ => ⟨ht, fun hp => hp, fun hp => hp⟩) rfl)
  | mark id' hid f hf => exact .inl (h.congr (Nat.le_refl _)
      (fun _ ht _ => ⟨ht, fun hp => hp, fun hp => hp⟩) rfl)
  | miss id' hid hf => exact .inl (h.congr (Nat.le_refl _)
      (fun _ ht _ => ⟨ht, fun hp => hp, fun hp => hp⟩) rfl)
  | new p w r d' hp hfree =>
      refine .inl (h.congr (Nat.le_succ _) (fun t ht hs => ?_) rfl)
      rcases heap_newTimer_inv ht with ⟨-, hs'⟩ | ⟨hne, ht⟩
      · -- a new timer has a number that no identifier has had
        have := h.1
        omega
      · exact ⟨ht, fun hp => List.mem_of_ne_of_mem hne hp, fun hp => hp⟩
  | add p t hp ht =>
      obtain ⟨-, hact, hheap, hnum, -⟩ := added_frame L.queue L.clock p t
      refine .inl (h.congr hnum.ge (fun t' ht' hs => ?_) rfl)
      have ht'' : L.queue.heap id.timer = some t' := by
        rw [← hheap]
        exact ht'
      refine ⟨ht'', List.mem_of_mem_erase, fun ha => ?_⟩
      have hadd : Active (L.queue.withTimer p t) id.timer := by
        unfold Active at ha ⊢
        rw [← hact]
        exact ha
      rcases active_withTimer.1 hadd with he | ha
      · exact absurd (by rw [he]; exact hp) (h.2 t' ht'' hs).notFresh
      · exact ha
  | drop id' t hid ht =>
      refine .inl (h.congr (Nat.le_refl _) (fun t' ht' _ => ?_) rfl)
      refine ⟨(heap_dropped_inv ht').2, fun hp => hp, fun ha => ?_⟩
      exact ((active_dropped hinv.sets ht hid).1 ha).2
  | begin hf expired q hq => exact .inl (notBefore_begin hinv hq h)
  | run now expired e rest t hf ht =>
      by_cases hd : 0 ≤ d ∨ id ≠ ⟨e.timer, t.sequence⟩
      · exact .inl (notBefore_run hf ht h hd)
      · obtain ⟨hneg, hid⟩ := not_or.1 hd
        refine .inr ⟨not_le.1 hneg, ?_⟩
        rw [not_not.1 hid]
  | finish now expired q hf hr =>
      exact .inl (notBefore_finish hinv hf hr (hC rfl _ hf rfl) h)

/-- A firing puts the bound in force: the timer's callback is behind it,
and its time in the batch will be up at `now + d` at the earliest. -/
theorem notBefore_of_fires {now : Timestamp} {id : TimerId} {t : Timer}
    (hinv : LoopInv L) (hf : Fires L now id t)
    (hok : L.wallStep (.act .runNext) = .ok L') :
    L'.obs = L.obs ++ [.started id]
      ∧ NotBefore L' id t.delta.toInt (now.micros + t.delta.toInt) := by
  obtain ⟨expired, e, rest, hfr, ht, rfl⟩ := hf
  simp only [wallStep, step, hfr, idOf, deref_eq ht, ok_bind] at hok
  cases hok
  have hb := hinv.batch _ hfr
  have he : e ∈ expired := hb.mem_next rfl
  have hnot : e.timer ∉ rest.map Entry.timer := by
    have hnd : (expired.map Entry.timer).Nodup := hb.nodup
    obtain ⟨ran, hsplit⟩ := hb.ran
    rw [show expired = ran ++ e :: rest from hsplit, List.map_append, List.map_cons] at hnd
    exact (List.nodup_cons.1 (List.nodup_append.1 hnd).2.1).1
  refine ⟨rfl, hinv.seq_le _ t ht, fun t' ht' _ => ?_⟩
  rw [show L.queue.heap e.timer = some t' from ht'] at ht
  cases ht
  refine ⟨rfl, hb.notFresh e he, fun ha => absurd ha (hb.idle e he),
    fun f hf hmem => ?_, fun f hf _ _ => ?_⟩
  · cases hf
    exact absurd hmem hnot
  · cases hf
    exact Int.le_refl _

/-- After the firing `NotBefore` starts from, either the bound is in force
or the timer has fired again and has a negative interval. -/
def FiredOrNotBefore (L₁ : TimerLoop) (id : TimerId) (d b : Int)
    (L : TimerLoop) : Prop :=
  ∃ mid, L.obs = L₁.obs ++ mid
    ∧ (NotBefore L id d b ∨ d < 0 ∧ .started id ∈ mid)

theorem firedOrNotBefore_wall {L₁ : TimerLoop} {id : TimerId} {d b : Int}
    {a : WallAct} (hinv : LoopInv L) (hm : WallMoves L a L')
    (hC : RestartsInRange L a) (h : FiredOrNotBefore L₁ id d b L) :
    FiredOrNotBefore L₁ id d b L' := by
  obtain ⟨mid, hobs, h⟩ := h
  cases hm with
  | set t =>
      refine ⟨mid, hobs, h.imp_left fun hb => ?_⟩
      exact hb.congr (Nat.le_refl _)
        (fun _ ht _ => ⟨ht, fun hp => hp, fun hp => hp⟩) rfl
  | act a L' hm =>
      obtain ⟨new, hnew⟩ := obs_moves hm
      refine ⟨mid ++ new, by rw [hnew, hobs, List.append_assoc], ?_⟩
      rcases h with hb | ⟨hd, hmem⟩
      · rcases notBefore_moves hinv hm hC hb with hb' | ⟨hd, hst⟩
        · exact .inl hb'
        · rw [hst] at hnew
          rw [← List.append_cancel_left hnew]
          exact .inr ⟨hd, by simp⟩
      · exact .inr ⟨hd, List.mem_append_left _ hmem⟩

/-- After a firing of `id` in a call at `now`, the timer runs again only in
a call at `now + d` or later: its next run, whatever the interval, and
every later one, unless the interval is negative. `mid` is what was
logged between the two firings. -/
def RunsAgainInTime (clock : Timestamp) (acts : List WallAct)
    (L : TimerLoop) : Prop :=
  ∀ before after L₀ now id t, acts = before ++ .act .runNext :: after →
    run wallStep (create clock) before = .ok L₀ → Fires L₀ now id t →
    t.repeat_ = true → ∀ mid, L.obs = L₀.obs ++ .started id :: mid →
    (0 ≤ t.delta.toInt ∨ .started id ∉ mid) →
    ∀ now' t', Fires L now' id t' →
      now.micros + t.delta.toInt ≤ now'.micros

theorem runsAgainInTime_of_along {clock : Timestamp} {acts : List WallAct}
    (h : Along wallStep RestartsInRange (create clock) acts)
    (hrun : run wallStep (create clock) acts = .ok L) :
    RunsAgainInTime clock acts L := by
  intro before after L₀ now id t hacts hrun₀ hfires _ mid hmid hd now' t' hf'
  subst hacts
  have hinv₀ := loopInv_of_wallRun (loopInv_create clock) hrun₀
  rw [run_append _ hrun₀] at hrun
  obtain ⟨L₁, hok, hrun₁⟩ := run_cons_inv hrun
  obtain ⟨hobs₁, hb₁⟩ := notBefore_of_fires hinv₀ hfires hok
  have hstep : ∀ s a s', LoopInv s
      ∧ FiredOrNotBefore L₁ id t.delta.toInt
        (now.micros + t.delta.toInt) s → RestartsInRange s a →
      s.wallStep a = .ok s' → LoopInv s' ∧ FiredOrNotBefore L₁ id
        t.delta.toInt (now.micros + t.delta.toInt) s' := by
    intro s a s' hs hC hok
    have hm := wallMoves_of_ok hs.1 hok
    exact ⟨loopInv_wall hs.1 hm, firedOrNotBefore_wall hs.1 hm hC hs.2⟩
  obtain ⟨-, mid', hobs, hor⟩ := run_inv hstep
    ⟨loopInv_wallStep hinv₀ hok, [], (List.append_nil _).symm, .inl hb₁⟩
    ((h.rest hrun₀).2 L₁ hok) hrun₁
  have hmid' : mid' = mid := by
    rw [hobs, hobs₁, List.append_assoc] at hmid
    exact (List.cons.inj (List.append_cancel_left hmid)).2
  subst hmid'
  rcases hor with hb | ⟨hneg, hmem⟩
  · obtain ⟨expired, e, rest, hfr, ht', rfl⟩ := hf'
    exact (hb.2 t' ht' rfl).awaits ⟨now', expired, e :: rest⟩ hfr
      (List.mem_cons_self ..)
  · rcases hd with hd | hd
    · omega
    · exact absurd hmem hd

-- ============================================================ every run

/-- What the run `acts`, which has led to `L`, does with its timers. -/
structure FiresOnTime (clock : Timestamp) (acts : List WallAct)
    (L : TimerLoop) : Prop where
  /-- whatever the time, the batch is the due timers in order, and a call
  made now runs it -/
  batch : ∀ now, ∃ expired q, L.queue.getExpired now = .ok (expired, q)
    ∧ DueBatch L.queue now expired q
    ∧ (L.frame = none → CallRuns L now expired)
  again : RunsAgainInTime clock acts L

/-- As long as every restart stays in the range of `int64_t`, timers fire
when they are due, in order, and never early. -/
theorem firesOnTime_of_restartsInRange (clock : Timestamp)
    (acts : List WallAct)
    (hacts : Along wallStep RestartsInRange (create clock) acts) :
    ∃ L, run wallStep (create clock) acts = .ok L
      ∧ FiresOnTime clock acts L := by
  obtain ⟨L, hrun, hinv⟩ := loopInv_wallRun (loopInv_create clock) acts
  refine ⟨L, hrun, fun now => ?_, runsAgainInTime_of_along hacts hrun⟩
  obtain ⟨expired, q, hget, hexp⟩ := getExpired_ok hinv.sets now hinv.bound
  exact ⟨expired, q, hget, dueBatch_of_expired hinv.sets hexp,
    fun hf => callRuns_of_getExpired hinv hf hget⟩

/-- A timer with an interval of 10 that fires, comes again late, and is
about to fire a second time, with the clock set back in between. -/
def firesTwice : List WallAct :=
  [.act (.newTimer 100 ⟨3⟩ true 10), .act (.addTimerInLoop 100), .set ⟨10⟩,
    .act .beginRead, .act .runNext, .act .endRead, .set ⟨4⟩,
    .act .beginRead, .act .endRead, .set ⟨25⟩, .act .beginRead]

theorem firesOnTime_twice :
    Along wallStep RestartsInRange (create ⟨5⟩) firesTwice
      ∧ ∃ L, run wallStep (create ⟨5⟩) firesTwice = .ok L
        ∧ FiresOnTime ⟨5⟩ firesTwice L := by
  have hacts : Along wallStep RestartsInRange (create ⟨5⟩) firesTwice := by
    refine along_step nofun rfl (along_step nofun rfl (along_step nofun rfl
      (along_step nofun rfl (along_step nofun rfl (along_step ?_ rfl
        (along_step nofun rfl (along_step nofun rfl (along_step ?_ rfl
          (along_step nofun rfl (along_step nofun rfl (along_nil _)))))))))))
    · intro _ f hf _ e he t ht _
      cases hf
      cases List.mem_singleton.1 he
      cases ht
      decide
    · -- nothing was due
      intro _ f hf _ e he
      cases hf
      cases he
  exact ⟨hacts, firesOnTime_of_restartsInRange ⟨5⟩ firesTwice hacts⟩

/-- `runEvery` with an interval of 9223372036854 seconds, called while the
timerfd is waiting to be handled for another timer. The callback of the
first firing asks for a one-shot timer a second later, and `handleRead`
is called for that one. -/
def repeatsInAges : List WallAct :=
  [.act (.newTimer 50 ⟨1700000000000050⟩ false 0),
    .act (.addTimerInLoop 50), .set ⟨1700000000000200⟩,
    .act (.newTimer 100 (addTime ⟨1700000000000200⟩ 9223372036853999616) true
      9223372036853999616),
    .act (.addTimerInLoop 100), .act .beginRead, .act .runNext,
    .act (.newTimer 200 ⟨1700000001000200⟩ false 0),
    .act (.addTimerInLoop 200), .act .runNext, .act .endRead,
    .set ⟨1700000001000300⟩, .act .beginRead]

/-- The sum in `restart` wraps, to a time long past: the timer is due
again a second after its first firing. -/
theorem wrapped_restart_fires_early :
    ∃ L, run wallStep (create ⟨1700000000000000⟩) repeatsInAges = .ok L
      ∧ ¬ FiresOnTime ⟨1700000000000000⟩ repeatsInAges L := by
  refine ⟨_, rfl, fun h => ?_⟩
  have hle := h.again (repeatsInAges.take 6) (repeatsInAges.drop 7) _
    ⟨1700000000000200⟩ ⟨100, 2⟩
    ⟨addTime ⟨1700000000000200⟩ 9223372036853999616, true,
      9223372036853999616, 2⟩ rfl rfl
    ⟨_, _, _, rfl, rfl, rfl⟩ rfl _ rfl (.inl (by decide))
    ⟨1700000001000300⟩ _ ⟨_, _, _, rfl, rfl, rfl⟩
  revert hle
  decide

end TimerLoop

end Cobra
