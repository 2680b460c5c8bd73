/-
All ways of `send` bring the whole message to `sendInLoop`, if its length
is an `int`.

On the loop thread nothing happens to the pointer and the length
(`direct_eq`). On another thread the string that is bound is the whole
message too (`sendThere_eq`), but the functor turns it into a
`StringPiece`: the length that arrives is the one that two conversions
leave (`viaString`).

`SendInv` holds in every run: each send is either waiting, with its whole
message bound, or has reached `sendInLoop`, and none of them twice.
-/
import Cobra.SendPaths
import Cobra.Proofs.VecBuffer

namespace Cobra

open Machine Window RawBuffer

-- ======================================================== one message

/-- A message that went through a bound string. -/
def viaString (message : List UInt8) : Handed :=
  .ofPointer message (castSize (castInt message.length))

theorem Handed.ofPointer_whole {mem message : List UInt8} {len : Nat}
    (hlen : len ≤ mem.length) (h : mem.take len = message) :
    Handed.ofPointer mem len = .whole message := by
  have hcount : message.length = len := by
    rw [← h, List.length_take, Nat.min_eq_left hlen]
  unfold ofPointer whole
  rw [if_pos hlen, h, hcount]

theorem viaString_eq_iff {message : List UInt8}
    (h : message.length ≤ maxSize) :
    viaString message = .whole message ↔ message.length < intMod := by
  have hbound : message.length < sizeMod - intMod :=
    Nat.lt_of_le_of_lt h (by decide)
  rw [← castSize_castInt_eq_iff hbound]
  constructor
  · intro heq
    exact congrArg Handed.len heq
  · intro hcast
    unfold viaString
    rw [hcast]
    exact Handed.ofPointer_whole (Nat.le_refl _) List.take_length

namespace SendArg

/-- What the loop thread passes on. -/
def direct : SendArg → Handed
  | .pointer data len => .ofPointer data len
  | .piece message => .ofPointer message.data (castSize message.size)
  | .buffer buf =>
      .ofPointer (buf.buffer.drop buf.readerIndex) buf.readableBytes

end SendArg

/-- A piece that denotes bytes has their number as its length. -/
theorem StringPiece.Denotes.castSize_eq {p : StringPiece} (h : p.Denotes) :
    castSize p.size = p.length.toNat ∧ p.length.toNat ≤ p.ptr.length := by
  obtain ⟨hpos, hlen, hlt⟩ := h
  have hcast := castSize_of_nat (n := p.length.toNat) (by
    have hint : intMod < sizeMod := by decide
    omega)
  rw [Int.toNat_of_nonneg hpos] at hcast
  exact ⟨hcast, by omega⟩

namespace SendArg

variable {a : SendArg}

theorem length_message_le (h : a.Denotes) : a.message.length ≤ maxSize := by
  cases a with
  | pointer data len =>
      exact Nat.le_trans (List.length_take_le ..) h.2
  | piece p =>
      have hint : intMod ≤ maxSize := by decide
      obtain ⟨hpos, -, hlt⟩ := h
      have hlen : (p.ptr.take p.length.toNat).length ≤ p.length.toNat :=
        List.length_take_le ..
      show (p.ptr.take p.length.toNat).length ≤ maxSize
      omega
  | buffer r =>
      have h : Reachable r := h
      obtain ⟨b, rfl, hsize, -⟩ := h.sound
      show b.content.length ≤ maxSize
      have hlast := b.writer_le
      rw [Buffer.length_content]
      unfold Buffer.readableBytes
      omega

/-- The loop thread passes on the whole message. -/
theorem direct_eq (h : a.Denotes) : a.direct = .whole a.message := by
  cases a with
  | pointer data len => exact Handed.ofPointer_whole h.1 rfl
  | piece p =>
      have h : p.Denotes := h
      obtain ⟨hcast, hlen⟩ := h.castSize_eq
      show Handed.ofPointer p.data (castSize p.size) = _
      rw [hcast]
      exact Handed.ofPointer_whole hlen rfl
  | buffer r =>
      have h : Reachable r := h
      obtain ⟨b, rfl, hsize, -⟩ := h.sound
      show Handed.ofPointer _ b.raw.readableBytes = _
      rw [readableBytes_raw hsize]
      apply Handed.ofPointer_whole
      · show b.readableBytes ≤ (b.buffer.drop b.readerIndex).length
        have hlast := b.writer_le
        rw [List.length_drop]
        unfold Buffer.readableBytes
        omega
      · exact VecBuffer.toStringPiece_take b

end SendArg

namespace SendPaths

variable {s s' : SendPaths} {a : SendArg}

-- ============================================================ one step

theorem sendHere_eq (h : a.Denotes) :
    ∃ e : Issued, e.inLoopThread = true ∧ e.arg = a
      ∧ s.sendHere a = .ok { s with
          issued := s.issued ++ [e]
          reached := s.reached ++ [(s.next, .whole a.message)] } := by
  have hdirect := SendArg.direct_eq h
  rw [← hdirect]
  cases a with
  | pointer data len => exact ⟨_, rfl, rfl, rfl⟩
  | piece p => exact ⟨_, rfl, rfl, rfl⟩
  | buffer r => exact ⟨_, rfl, rfl, rfl⟩

theorem copyString_ok {mem : List UInt8} {len : Nat} (h : len ≤ mem.length) :
    copyString mem len = .ok (mem.take len) := require_bind h _

/-- The string that is bound is the whole message. -/
theorem sendThere_eq (h : a.Denotes) :
    ∃ e : Issued, e.inLoopThread = false ∧ e.arg = a
      ∧ s.sendThere a = .ok { s with
          issued := s.issued ++ [e]
          queue := s.queue.push (s.next, a.message) } := by
  cases a with
  | pointer data len =>
      refine ⟨⟨false, .pointer data len, none⟩, rfl, rfl, ?_⟩
      show (copyString data len >>= fun _ => _) = _
      rw [copyString_ok h.1]
      rfl
  | piece p =>
      have h : p.Denotes := h
      obtain ⟨hcast, hlen⟩ := h.castSize_eq
      have hstr : p.as_string = .ok (p.ptr.take p.length.toNat) := by
        unfold StringPiece.as_string
        rw [hcast]
        exact copyString_ok hlen
      refine ⟨⟨false, .piece p, none⟩, rfl, rfl, ?_⟩
      show (p.as_string >>= fun _ => _) = _
      rw [hstr]
      rfl
  | buffer r =>
      have h : Reachable r := h
      obtain ⟨b, rfl, hsize, -⟩ := h.sound
      obtain ⟨⟨str, left⟩, hstr, hmessage, -⟩ :=
        retrieveAsString_leaves hsize (Nat.le_refl b.readableBytes)
      have hall : b.raw.retrieveAllAsString = .ok (b.raw.content, left) := by
        unfold retrieveAllAsString
        rw [readableBytes_raw hsize, hstr]
        have hwhole : str = b.content := by
          rw [← Buffer.length_content, List.take_length] at hmessage
          exact hmessage
        rw [hwhole]
        rfl
      refine ⟨⟨false, .buffer b.raw, some left⟩, rfl, rfl, ?_⟩
      show (b.raw.retrieveAllAsString.mapError SendFault.buffer
        >>= fun _ => _) = _
      rw [hall]
      rfl

/-- Everything a step does to the record and to the waiting functors. -/
inductive Moves (s s' : SendPaths) : Prop
  /-- a send on the loop thread -/
  | here (e : Issued) (inLoop : e.inLoopThread = true)
      (denotes : e.arg.Denotes) (issued : s'.issued = s.issued ++ [e])
      (reached : s'.reached
        = s.reached ++ [(s.next, .whole e.arg.message)])
      (waiting : s'.queue.waiting = s.queue.waiting)
  /-- a send on another thread -/
  | there (e : Issued) (inLoop : e.inLoopThread = false)
      (denotes : e.arg.Denotes) (issued : s'.issued = s.issued ++ [e])
      (reached : s'.reached = s.reached)
      (waiting : s'.queue.waiting
        = s.queue.waiting ++ [(s.next, e.arg.message)])
  /-- a functor called -/
  | called (i : Nat) (message : List UInt8)
      (issued : s'.issued = s.issued)
      (reached : s'.reached = s.reached ++ [(i, viaString message)])
      (waiting : s.queue.waiting = (i, message) :: s'.queue.waiting)
  | same (issued : s'.issued = s.issued) (reached : s'.reached = s.reached)
      (waiting : s'.queue.waiting = s.queue.waiting)

theorem step_moves {act : SendAct} (hlegal : s.Legal act)
    (h : s.step act = .ok s') : Moves s s' := by
  cases act with
  | send inLoopThread a =>
      have h : s.send inLoopThread a = .ok s' := h
      unfold send at h
      split at h
      · cases inLoopThread with
        | true =>
            obtain ⟨e, hin, rfl, hok⟩ := sendHere_eq (s := s) hlegal
            rw [if_pos rfl, hok] at h
            cases h
            exact .here e hin hlegal rfl rfl rfl
        | false =>
            obtain ⟨e, hin, rfl, hok⟩ := sendThere_eq (s := s) hlegal
            rw [if_neg (by decide), hok] at h
            cases h
            exact .there e hin hlegal rfl rfl (FunctorQueue.waiting_push ..)
      · cases h
        exact .same rfl rfl rfl
  | setState state =>
      cases h
      exact .same rfl rfl rfl
  | swap =>
      have h : (if s.queue.functors.isEmpty then
          .ok { s with queue := s.queue.swap }
        else .ok s : Except SendFault SendPaths) = .ok s' := h
      split at h
      next hempty =>
        cases h
        exact .same rfl rfl
          (FunctorQueue.waiting_swap (List.isEmpty_iff.mp hempty))
      next =>
        cases h
        exact .same rfl rfl rfl
  | call =>
      have h : Except.ok s.call = .ok s' := h
      unfold call at h
      split at h
      next i message rest hfunctors =>
        cases h
        refine .called i message rfl rfl ?_
        unfold FunctorQueue.waiting
        rw [hfunctors]
        rfl
      next =>
        cases h
        exact .same rfl rfl rfl

-- ============================================================= the runs

/-- What arrives of a send. -/
def arrives (e : Issued) : Handed :=
  if e.inLoopThread then .whole e.arg.message else viaString e.arg.message

/-- Each send is waiting with its whole message or has arrived, and none
of them twice. -/
structure SendInv (s : SendPaths) : Prop where
  denotes : ∀ e ∈ s.issued, e.arg.Denotes
  waiting : ∀ p ∈ s.queue.waiting, ∃ e, s.issued[p.1]? = some e
    ∧ e.inLoopThread = false ∧ p.2 = e.arg.message
  reached : ∀ p ∈ s.reached, ∃ e, s.issued[p.1]? = some e ∧ p.2 = arrives e
  once : (s.reached.map Prod.fst ++ s.queue.waiting.map Prod.fst).Perm
    (List.range s.issued.length)

theorem sendInv_start : SendInv start where
  denotes := nofun
  waiting := nofun
  reached := nofun
  once := .refl _

/-- An entry of the record stays where it is. -/
theorem getElem_snoc {l : List Issued} {i : Nat} {e e' : Issued}
    (h : l[i]? = some e) : (l ++ [e'])[i]? = some e := by
  have hlt := (List.getElem?_eq_some_iff.mp h).1
  rw [List.getElem?_append_left hlt]
  exact h

/-- The number of a new send. -/
theorem range_snoc (s : SendPaths) (e : Issued) :
    List.range (s.issued ++ [e]).length
      = List.range s.issued.length ++ [s.next] := by
  rw [List.length_append, List.length_singleton, List.range_succ]
  rfl

theorem SendInv.denotes_snoc {e : Issued} (h : SendInv s)
    (he : e.arg.Denotes) : ∀ x ∈ s.issued ++ [e], x.arg.Denotes := by
  intro x hx
  obtain hx | hx := List.mem_append.mp hx
  · exact h.denotes x hx
  · rw [List.mem_singleton.mp hx]
    exact he

/-- What waits stays in the record when another send is issued. -/
theorem SendInv.waiting_snoc (h : SendInv s) (e : Issued) :
    ∀ p ∈ s.queue.waiting, ∃ e', (s.issued ++ [e])[p.1]? = some e'
      ∧ e'.inLoopThread = false ∧ p.2 = e'.arg.message := by
  intro p hp
  obtain ⟨e', he', hthere⟩ := h.waiting p hp
  exact ⟨e', getElem_snoc he', hthere⟩

/-- And so does what has arrived. -/
theorem SendInv.reached_snoc (h : SendInv s) (e : Issued) :
    ∀ p ∈ s.reached, ∃ e', (s.issued ++ [e])[p.1]? = some e'
      ∧ p.2 = arrives e' := by
  intro p hp
  obtain ⟨e', he', harrives⟩ := h.reached p hp
  exact ⟨e', getElem_snoc he', harrives⟩

theorem SendInv.moves (h : SendInv s) (hm : Moves s s') : SendInv s' := by
  cases hm with
  | here e inLoop denotes issued reached waiting =>
      refine ⟨?_, ?_, ?_, ?_⟩
      · rw [issued]
        exact h.denotes_snoc denotes
      · rw [issued, waiting]
        exact h.waiting_snoc e
      · rw [issued, reached]
        intro p hp
        obtain hp | hp := List.mem_append.mp hp
        · exact h.reached_snoc e p hp
        · rw [List.mem_singleton.mp hp]
          refine ⟨e, List.getElem?_concat_length, ?_⟩
          unfold arrives
          rw [if_pos inLoop]
      · rw [issued, reached, waiting, range_snoc, List.map_append,
          List.append_assoc]
        refine (List.perm_append_comm.append_left _).trans ?_
        rw [← List.append_assoc]
        exact h.once.append_right _
  | there e inLoop denotes issued reached waiting =>
      refine ⟨?_, ?_, ?_, ?_⟩
      · rw [issued]
        exact h.denotes_snoc denotes
      · rw [issued, waiting]
        intro p hp
        obtain hp | hp := List.mem_append.mp hp
        · exact h.waiting_snoc e p hp
        · rw [List.mem_singleton.mp hp]
          exact ⟨e, List.getElem?_concat_length, inLoop, rfl⟩
      · rw [issued, reached]
        exact h.reached_snoc e
      · rw [issued, reached, waiting, range_snoc, List.map_append,
          ← List.append_assoc]
        exact h.once.append_right _
  | called i message issued reached waiting =>
      have hfirst := h.waiting (i, message) (by
        rw [waiting]
        exact List.mem_cons_self)
      have honce := h.once
      rw [waiting] at honce
      refine ⟨?_, ?_, ?_, ?_⟩
      · rw [issued]
        exact h.denotes
      · rw [issued]
        intro p hp
        apply h.waiting p
        rw [waiting]
        exact List.mem_cons_of_mem _ hp
      · rw [issued, reached]
        intro p hp
        obtain hp | hp := List.mem_append.mp hp
        · exact h.reached p hp
        · rw [List.mem_singleton.mp hp]
          obtain ⟨e, he, hthere, hmessage⟩ := hfirst
          refine ⟨e, he, ?_⟩
          unfold arrives
          rw [hthere, ← hmessage]
          rfl
      · rw [issued, reached, List.map_append, List.append_assoc]
        exact honce
  | same issued reached waiting =>
      refine ⟨?_, ?_, ?_, ?_⟩
      · rw [issued]
        exact h.denotes
      · rw [issued, waiting]
        exact h.waiting
      · rw [issued, reached]
        exact h.reached
      · rw [issued, reached, waiting]
        exact h.once

theorem sendInv_run {acts : List SendAct} (hlegal : Along step Legal start acts)
    (hrun : run step start acts = .ok s) : SendInv s :=
  run_inv (fun _ _ _ h hl hs => h.moves (step_moves hl hs)) sendInv_start
    hlegal hrun

/-- A send from another thread, and the loop calls it. -/
def handOver (a : SendArg) : List SendAct := [.send false a, .swap, .call]

theorem run_handOver (ha : a.Denotes) :
    Along step Legal start (handOver a)
      ∧ ∃ s e, run step start (handOver a) = .ok s
        ∧ s.issued[0]? = some e ∧ e.arg = a
        ∧ s.reached = [(0, viaString a.message)] := by
  obtain ⟨e, -, harg, hok⟩ := sendThere_eq (s := start) ha
  refine ⟨⟨ha, fun _ _ => ⟨trivial, fun _ _ => ⟨trivial, fun _ _ => trivial⟩⟩⟩,
    ⟨.kConnected, .empty, [e], [(0, viaString a.message)]⟩, e, ?_, rfl, harg,
    rfl⟩
  have hsend : start.step (.send false a) = start.sendThere a := rfl
  unfold handOver
  rw [run_cons_ok _ (hsend.trans hok)]
  rfl

/-- In every run all sends of an argument bring its whole message to
`sendInLoop`, each of them once when the loop has called its functors,
exactly when the length of the message is an `int`. -/
theorem send_paths_agree_iff (ha : a.Denotes) :
    (∀ acts s, Along step Legal start acts → run step start acts = .ok s →
        ∀ i e, s.issued[i]? = some e → e.arg = a →
          (∀ h, (i, h) ∈ s.reached → h = .whole a.message)
          ∧ (s.queue.waiting = [] → (s.reached.map Prod.fst).count i = 1))
      ↔ a.message.length < intMod := by
  constructor
  · intro hagree
    obtain ⟨hlegal, s, e, hrun, he, harg, hreached⟩ := run_handOver ha
    apply (viaString_eq_iff (SendArg.length_message_le ha)).mp
    apply (hagree _ s hlegal hrun 0 e he harg).1
    rw [hreached]
    exact List.mem_singleton_self _
  · intro hlt acts s hlegal hrun i e he harg
    have hinv := sendInv_run hlegal hrun
    refine ⟨fun h hh => ?_, fun hdrained => ?_⟩
    · obtain ⟨e', he', harrives⟩ := hinv.reached (i, h) hh
      rw [he] at he'
      cases he'
      have hwhole := (viaString_eq_iff (SendArg.length_message_le ha)).mpr hlt
      have harrives : h = arrives e := harrives
      rw [harrives]
      unfold arrives
      rw [harg, hwhole, ite_self]
    · have honce := hinv.once
      rw [hdrained, List.map_nil, List.append_nil] at honce
      rw [honce.count_eq]
      apply List.count_eq_one_of_mem List.nodup_range
      exact List.mem_range.mpr (List.getElem?_eq_some_iff.mp he).1

/-- A piece sent from another thread. -/
theorem send_paths_agree_iff_piece :
    ∃ s, run step start (handOver (.piece (.ofString [104, 105]))) = .ok s
      ∧ ∀ h, (0, h) ∈ s.reached → h = .whole [104, 105] := by
  have ha : (SendArg.piece (.ofString [104, 105])).Denotes := by
    show StringPiece.Denotes _
    decide
  obtain ⟨hlegal, s, e, hrun, he, harg, -⟩ := run_handOver ha
  have hagree := (send_paths_agree_iff ha).mpr (by decide)
  exact ⟨s, hrun, (hagree _ s hlegal hrun 0 e he harg).1⟩

/-- A message of `2 ^ 31` bytes sent from another thread: `sendInLoop` gets
a length that goes beyond the end of the string. -/
theorem send_long_message :
    ∃ s, run step start
        (handOver (.pointer (VecBuffer.message intMod) intMod)) = .ok s
      ∧ s.reached = [(0, ⟨none, sizeMod - intMod⟩)] := by
  have ha : (SendArg.pointer (VecBuffer.message intMod) intMod).Denotes := by
    refine ⟨?_, by decide⟩
    rw [VecBuffer.length_message]
  obtain ⟨-, s, -, hrun, -, -, hreached⟩ := run_handOver ha
  refine ⟨s, hrun, ?_⟩
  have hmessage : (SendArg.pointer (VecBuffer.message intMod) intMod).message
      = VecBuffer.message intMod :=
    List.take_of_length_le (Nat.le_of_eq (VecBuffer.length_message _))
  have hcast : castSize (castInt intMod) = sizeMod - intMod := by decide
  rw [hreached, hmessage]
  unfold viaString Handed.ofPointer
  rw [VecBuffer.length_message, hcast, if_neg (by decide)]

end SendPaths

end Cobra
