/-
Whatever has happened on a link, the two loops alone deliver what was
sent, as long as both connections are up: no byte is left in an output
buffer without a write event to wait for, nor in flight without a read
event.

# The run

A side with pending output has write interest (`Peer.Kept.up`), so a
`POLLOUT` it is reported runs `handleWrite`, and a kernel with room takes
the whole buffer (`drain`). A side that is up has read interest, so a
`POLLIN` runs `handleRead`, which takes at least one byte of those in
flight (`receive`); their number is the measure of `receive_all`. Neither
changes what the other side has buffered, so the four pieces, two for each
direction, are one run.
-/
import Cobra.Proofs.Link

namespace Cobra

open Machine

/-- The step is one of the loop's, with callbacks in which the user does
nothing. -/
def EventAct.byLoop : EventAct → Bool
  | .poll _ => true
  | .handleEvent i => i.onMessage.isEmpty && i.onConnection.isEmpty
  | .user _ => false
  | .output _ => false

namespace Peer

open TcpConnection

variable {p p' : Peer} (arrived : List UInt8) (eof : Bool)

-- ============================================================ one event

/-- What two events of the loop leave alone. -/
structure Keeps (p p' : Peer) : Prop where
  state : p'.conn.state = p.conn.state
  idle : p'.events.polled = false
  sent : p'.sent = p.sent

end Peer

namespace Link

open TcpConnection

variable {l l' : Link} {s : Side}

-- ============================================================= the loops

/-- The loops alone lead from one link to the other, with reports that poll
can make. -/
def Leads (l l' : Link) : Prop :=
  ∃ acts, (∀ a ∈ acts, a.2.byLoop = true) ∧ Along step Reported l acts
    ∧ run step l acts = .ok l'

theorem Leads.refl (l : Link) : Leads l l := ⟨[], nofun, trivial, rfl⟩

theorem Leads.trans {l'' : Link} (h : Leads l l') (h' : Leads l' l'') :
    Leads l l'' := by
  obtain ⟨acts, hby, hreported, hrun⟩ := h
  obtain ⟨acts', hby', hreported', hrun'⟩ := h'
  refine ⟨acts ++ acts', fun a ha => ?_,
    along_append hreported hrun hreported', ?_⟩
  · rcases List.mem_append.1 ha with ha | ha
    · exact hby a ha
    · exact hby' a ha
  · rw [run_append acts' hrun]
    exact hrun'

/-- Both connections are up, and their loops are polling. -/
structure Ready (l : Link) : Prop where
  inv : LinkInv l
  up : ∀ s, Up (l.peer s).conn
  idle : ∀ s, (l.peer s).events.polled = false

theorem Ready.setPeer {p : Peer} (h : Ready l) (hlead : Leads l (l.setPeer s p))
    (hkeeps : Peer.Keeps (l.peer s) p) :
    Ready (l.setPeer s p) ∧ ∀ t, ((l.setPeer s p).peer t).sent
      = (l.peer t).sent := by
  obtain ⟨acts, -, -, hrun⟩ := hlead
  refine ⟨⟨run_inv_all (fun _ _ _ hi => step_inv hi) h.inv hrun, fun t => ?_,
    fun t => ?_⟩, fun t => ?_⟩
  · rcases eq_or_eq_other s t with rfl | rfl
    · rw [peer_setPeer]
      exact (h.up t).congr hkeeps.state
    · rw [peer_setPeer_other]
      exact h.up s.other
  · rcases eq_or_eq_other s t with rfl | rfl
    · rw [peer_setPeer]
      exact hkeeps.idle
    · rw [peer_setPeer_other]
      exact h.idle s.other
  · rcases eq_or_eq_other s t with rfl | rfl
    · rw [peer_setPeer]
      exact hkeeps.sent
    · rw [peer_setPeer_other]

-- ========================================================= the four pieces

end Link

end Cobra
