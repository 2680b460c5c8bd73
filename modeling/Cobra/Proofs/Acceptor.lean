/-
The acceptor among the descriptors of its process: what it closes is its
own, what it takes from the backlog it hands over or refuses, and the
reserve keeps the backlog moving.

# Who has what

`own` lists the acceptor's descriptors, read off `pc`: `idle_fd_` keeps
its number after it has been closed, and is not a descriptor then. `Owns`
says that the list is exact, in both directions, so that it rules out a
close of somebody else's descriptor and a leak alike. A system call
changes it by one entry (`Owns.opened`, `Owns.closed`), and what other
threads do does not change it (`Owns.alloc_other`, `Owns.close_other`).

# The reserve

`handlers_drain` goes handler by handler: an undisturbed one takes the first
connection of the backlog, as long as a number is free or the reserve is
there, and leaves the reserve as it was. Without the reserve a full table
is a handler that changes nothing.
-/
import Cobra.Acceptor

namespace Cobra

open Machine Process

-- ============================================================== ownership

/-- The acceptor's descriptors are these. -/
def Owns (fds : FdTable FdUse) (own : List (Nat × FdUse)) : Prop :=
  ∀ fd use, use.ofAcceptor = true →
    (fds.lookup fd = some use ↔ (fd, use) ∈ own)

section Owns

variable {fds fds' : FdTable FdUse} {own own' : List (Nat × FdUse)}
  {fd : Nat} {use : FdUse}

/-- A number that is free is not the acceptor's. -/
theorem Owns.not_mem (h : Owns fds own) (huse : use.ofAcceptor = true)
    (hnone : fds.lookup fd = none) : (fd, use) ∉ own := by
  intro hmem
  rw [(h fd use huse).2 hmem] at hnone
  cases hnone

/-- The acceptor opens a descriptor. -/
theorem Owns.opened (h : Owns fds own) (ha : fds.alloc use = some (fd, fds'))
    (hmem : ∀ p, p ∈ own' ↔ p = (fd, use) ∨ p ∈ own) : Owns fds' own' := by
  obtain ⟨hfree, hlookup, -⟩ := FdTable.alloc_spec ha
  intro n u hu
  rw [hlookup, hmem]
  split
  next heq =>
    subst heq
    constructor
    · intro hsome
      cases hsome
      exact .inl rfl
    · rintro (heq | hin)
      · cases heq
        rfl
      · exact absurd hin (h.not_mem hu hfree)
  next hne =>
    rw [h n u hu]
    constructor
    · exact .inr
    · rintro (heq | hin)
      · cases heq
        exact absurd rfl hne
      · exact hin

/-- The acceptor gives a descriptor up: by closing it, or to somebody
else. -/
theorem Owns.gave {v : Option FdUse} (h : Owns fds own)
    (huse : use.ofAcceptor = true)
    (hlookup : ∀ n, fds'.lookup n = if fd = n then v else fds.lookup n)
    (hv : ∀ u, v = some u → u.ofAcceptor = false)
    (hmem : ∀ p, p ∈ own ↔ p = (fd, use) ∨ p ∈ own')
    (hnot : (fd, use) ∉ own') : Owns fds' own' := by
  have hfd : fds.lookup fd = some use := (h fd use huse).2 ((hmem _).2 (.inl rfl))
  intro n u hu
  rw [hlookup]
  split
  next heq =>
    subst heq
    constructor
    · intro hsome
      rw [hv u hsome] at hu
      cases hu
    · intro hin
      have hsome := (h fd u hu).2 ((hmem _).2 (.inr hin))
      rw [hfd] at hsome
      cases hsome
      exact absurd hin hnot
  next hne =>
    rw [h n u hu, hmem]
    constructor
    · rintro (heq | hin)
      · cases heq
        exact absurd rfl hne
      · exact hin
    · exact .inr

/-- The acceptor closes a descriptor. -/
theorem Owns.closed (h : Owns fds own) (huse : use.ofAcceptor = true)
    (hmem : ∀ p, p ∈ own ↔ p = (fd, use) ∨ p ∈ own')
    (hnot : (fd, use) ∉ own') : Owns (fds.close fd) own' :=
  h.gave huse (FdTable.lookup_close fds fd) (fun _ hu => by cases hu) hmem hnot

/-- Another thread opens one. -/
theorem Owns.alloc_other (h : Owns fds own)
    (ha : fds.alloc use = some (fd, fds')) (huse : use.ofAcceptor = false) :
    Owns fds' own := by
  obtain ⟨hfree, hlookup, -⟩ := FdTable.alloc_spec ha
  intro n u hu
  rw [hlookup]
  split
  next heq =>
    subst heq
    constructor
    · intro hsome
      cases hsome
      rw [huse] at hu
      cases hu
    · intro hin
      exact absurd hin (h.not_mem hu hfree)
  next => exact h n u hu

/-- Another thread closes one of its own. -/
theorem Owns.close_other (h : Owns fds own) (hfd : fds.lookup fd = some use)
    (huse : use.ofAcceptor = false) : Owns (fds.close fd) own := by
  intro n u hu
  rw [FdTable.lookup_close]
  split
  next heq =>
    subst heq
    constructor
    · intro hsome
      cases hsome
    · intro hin
      have hsome := (h fd u hu).2 hin
      rw [hfd] at hsome
      cases hsome
      rw [huse] at hu
      cases hu
  next => exact h n u hu

end Owns

namespace Acceptor

-- ========================================================== the invariant

/-- `idle_fd_`, while it is open on `/dev/null`. -/
def reserve (s : Acceptor) : List (Nat × FdUse) :=
  s.idleFd.toList.map fun fd => (fd, .devNull)

/-- The acceptor's descriptors. -/
def own (s : Acceptor) : List (Nat × FdUse) :=
  (s.listenFd, .listening) ::
    match s.pc with
    | .resting | .full => s.reserve
    | .accepted connfd _ => (connfd, .accepted) :: s.reserve
    | .holding _ => s.idleFd.toList.map fun fd => (fd, .accepted)
    | .released | .closed | .destroyed => []

/-- The connection that has left the backlog and is not done with. -/
def inHand (s : Acceptor) : List Endpoint :=
  match s.pc with
  | .accepted _ peer => [peer]
  | .holding peer => peer.toList
  | .resting | .full | .released | .closed | .destroyed => []

/-- The acceptor keeps to its own, and no connection is lost: its
descriptors are those of `own` and no others are, nothing else was ever
closed, every connection that came is done with, in hand or in the
backlog, in the order of arrival, and was given to the callback or closed,
once. -/
structure Safe (s : Acceptor) : Prop where
  owns : Owns s.fds s.own
  closedOwn : ∀ u ∈ s.closes, u = some .devNull ∨ u = some .accepted
  inOrder : s.fates.map Prod.fst ++ s.inHand ++ s.pending = s.arrivals
  called : s.calls.map Prod.snd
    = (s.fates.filter fun p => p.2 = .handed).map Prod.fst
  refusedClosed : s.closes.count (some .accepted)
    = (s.fates.filter fun p => p.2 = .refused).length
  holds : ∀ peer, s.pc = .holding peer → s.idleFd.isSome = peer.isSome

section Steps

variable {s s' : Acceptor} {fail logErrno : Option AcceptErrno}

theorem safe_create {used : List Bool} (h : create used = .ok s) :
    s.Safe := by
  have hothers : Owns
      ⟨used.map fun b => if b then some FdUse.other else none⟩ [] := by
    intro fd use huse
    refine iff_of_false (fun hsome => ?_) (fun hmem => by cases hmem)
    have hget := FdTable.lt_of_lookup hsome
    rw [List.getElem?_map] at hget
    obtain ⟨b, -, hb⟩ := Option.map_eq_some_iff.1 hget
    cases b with
    | false => cases hb
    | true =>
        cases hb
        cases huse
  unfold create at h
  split at h
  next => cases h
  next listenFd fds halloc =>
    split at h
    next => cases h
    next idleFd fds' hidle =>
      cases h
      have hlisten : Owns fds [(listenFd, .listening)] :=
        hothers.opened halloc fun p => by simp
      refine ⟨hlisten.opened hidle fun p => ?_, ?_, rfl, rfl, rfl, ?_⟩
      · simp only [own, reserve, Option.toList_some, List.map_cons, List.map_nil,
          List.mem_cons, List.not_mem_nil, or_false]
        exact or_comm
      · intro u hu
        cases hu
      · rintro peer ⟨⟩

/-- What `accept` does when it takes a connection. -/
theorem accept_ok {fd : Nat} {peer : Endpoint}
    (h : s.accept fail = .ok (fd, peer, s')) :
    ∃ fds rest, s.fds.alloc .accepted = some (fd, fds)
      ∧ s.pending = peer :: rest
      ∧ s' = { s with fds := fds, pending := rest } := by
  unfold accept at h
  split at h
  next => cases h
  next =>
    split at h
    next => cases h
    next fd' fds halloc =>
      split at h
      next => cases h
      next peer' rest hpending =>
        cases h
        exact ⟨fds, rest, halloc, hpending, rfl⟩

theorem safe_HandleRead (hs : s.Safe) (hpc : s.pc = .resting)
    (h : s.HandleRead fail logErrno = .ok s') : s'.Safe := by
  obtain ⟨howns, hclosed, horder, hcalled, hrefused, -⟩ := hs
  simp only [own, hpc] at howns
  simp only [inHand, hpc, List.append_nil] at horder
  unfold HandleRead at h
  obtain ⟨r, hr, h⟩ := bind_ok_inv h
  split at h
  next connfd peer s₁ =>
    unfold Accept at hr
    split at hr
    next r' haccept =>
      cases hr
      cases h
      obtain ⟨fds, rest, halloc, hpending, rfl⟩ := accept_ok haccept
      refine ⟨?_, hclosed, ?_, hcalled, hrefused, by rintro p ⟨⟩⟩
      · refine howns.opened halloc fun p => ?_
        simp only [own, reserve, List.mem_cons]
        exact or_left_comm
      · rw [← horder, hpending]
        simp only [inHand, List.append_assoc, List.singleton_append]
    next => split at hr <;> cases hr
  next e =>
    cases h
    by_cases herrno : logErrno.getD e = .EMFILE
    · rw [if_pos herrno]
      exact ⟨howns, hclosed, by rw [← horder]; simp only [inHand, List.append_nil],
        hcalled, hrefused, by rintro p ⟨⟩⟩
    · rw [if_neg herrno]
      exact ⟨howns, hclosed, by rw [← horder]; simp only [inHand, List.append_nil],
        hcalled, hrefused, by rintro p ⟨⟩⟩

/-- One entry more, of the reserve. -/
theorem count_snoc_devNull (l : List (Option FdUse)) :
    (l ++ [some FdUse.devNull]).count (some .accepted)
      = l.count (some .accepted) := by
  rw [List.count_append]
  rfl

/-- One entry more, of a connection. -/
theorem count_snoc_accepted (l : List (Option FdUse)) :
    (l ++ [some FdUse.accepted]).count (some .accepted)
      = l.count (some .accepted) + 1 := by
  rw [List.count_append]
  rfl

theorem closedOwn_snoc {l : List (Option FdUse)} {v : Option FdUse}
    (h : ∀ u ∈ l, u = some .devNull ∨ u = some .accepted)
    (hv : v = some .devNull ∨ v = some .accepted) :
    ∀ u ∈ l ++ [v], u = some .devNull ∨ u = some .accepted := by
  intro u hu
  rcases List.mem_append.1 hu with hu | hu
  · exact h u hu
  · rw [List.mem_singleton.1 hu]
    exact hv

/-- The reserve is closed, where there is one. -/
theorem safe_closeIdle {pc : AcceptorPc} (hs : s.Safe)
    (hown : s.own = (s.listenFd, .listening) :: s.reserve)
    (hpc : pc = .released ∨ pc = .destroyed) (hin : s.inHand = []) :
    Safe { s.close s.idleFd with pc := pc } := by
  obtain ⟨howns, hclosed, horder, hcalled, hrefused, -⟩ := hs
  rw [hown] at howns
  rw [hin] at horder
  have hempty : ∀ s : Acceptor, s.pc = pc →
      s.own = [(s.listenFd, .listening)] ∧ s.inHand = []
        ∧ ∀ peer, s.pc ≠ .holding peer := by
    intro s heq
    unfold own inHand
    rw [heq]
    rcases hpc with rfl | rfl <;> exact ⟨rfl, rfl, by rintro peer ⟨⟩⟩
  cases hidle : s.idleFd with
  | none =>
      obtain ⟨ho, hi, hne⟩ := hempty { s.close none with pc := pc } rfl
      refine ⟨?_, hclosed, ?_, hcalled, hrefused,
        fun peer hp => absurd hp (hne peer)⟩
      · rw [ho]
        simp only [reserve, hidle, Option.toList_none, List.map_nil] at howns
        exact howns
      · rw [hi]
        exact horder
  | some fd =>
      obtain ⟨ho, hi, hne⟩ := hempty { s.close (some fd) with pc := pc } rfl
      simp only [reserve, hidle, Option.toList_some, List.map_cons,
        List.map_nil] at howns
      have hlookup : s.fds.lookup fd = some .devNull :=
        (howns fd .devNull rfl).2 (by simp)
      refine ⟨?_, closedOwn_snoc hclosed (.inl hlookup), ?_, hcalled, ?_,
        fun peer hp => absurd hp (hne peer)⟩
      · rw [ho]
        refine howns.closed (rfl : FdUse.devNull.ofAcceptor = true)
          (fun p => ?_) (by simp)
        simp only [List.mem_cons, List.not_mem_nil, or_false]
        exact or_comm
      · rw [hi]
        exact horder
      · simp only [close, hlookup]
        rw [count_snoc_devNull]
        exact hrefused

/-- A connection in hand is closed. -/
theorem safe_refuse {pc : AcceptorPc} {fd : Nat} {peer : Endpoint}
    (hs : s.Safe) (rest : List (Nat × FdUse))
    (hown : ∀ p, p ∈ s.own ↔ p = (fd, .accepted) ∨ p ∈ rest)
    (hnot : (fd, .accepted) ∉ rest) (hin : s.inHand = [peer])
    (hpc : ∀ s : Acceptor, s.pc = pc → s.inHand = []
      ∧ ∀ peer, s.pc ≠ .holding peer)
    (hrest : ({ (s.close (some fd)).refused (some peer) with pc := pc }).own
      = rest) :
    Safe { (s.close (some fd)).refused (some peer) with pc := pc } := by
  obtain ⟨howns, hclosed, horder, hcalled, hrefused, -⟩ := hs
  have hlookup : s.fds.lookup fd = some .accepted :=
    (howns fd .accepted rfl).2 ((hown _).2 (.inl rfl))
  obtain ⟨hi, hne⟩ :=
    hpc { (s.close (some fd)).refused (some peer) with pc := pc } rfl
  refine ⟨?_, closedOwn_snoc hclosed (.inr hlookup), ?_, ?_, ?_,
    fun peer hp => absurd hp (hne peer)⟩
  · rw [hrest]
    exact howns.closed rfl hown hnot
  · rw [hi]
    rw [hin] at horder
    simp only [close, refused, Option.toList_some, List.map_cons, List.map_nil,
      List.map_append, List.append_nil]
    exact horder
  · simp only [close, refused, Option.toList_some, List.map_cons, List.map_nil,
      List.filter_append]
    rw [hcalled]
    simp
  · simp only [close, refused, hlookup, Option.toList_some, List.map_cons,
      List.map_nil, List.filter_append, List.length_append]
    rw [count_snoc_accepted, hrefused]
    rfl

/-- The callback takes a connection in hand. -/
theorem safe_hand {connfd : Nat} {peer : Endpoint} (hs : s.Safe)
    (hpc : s.pc = .accepted connfd peer) :
    Safe { s.hand connfd peer with pc := .resting } := by
  obtain ⟨howns, hclosed, horder, hcalled, hrefused, -⟩ := hs
  simp only [own, hpc] at howns
  simp only [inHand, hpc] at horder
  have hlookup : s.fds.lookup connfd = some .accepted :=
    (howns connfd .accepted rfl).2 (by simp)
  obtain ⟨hlt, -⟩ := List.getElem?_eq_some_iff.1 (FdTable.lt_of_lookup hlookup)
  refine ⟨?_, hclosed, ?_, ?_, ?_, by rintro p ⟨⟩⟩
  · refine howns.gave (rfl : FdUse.accepted.ofAcceptor = true)
      (FdTable.lookup_put hlt)
      (fun u hu => by cases hu; rfl) (fun p => ?_) ?_
    · simp only [own, hand, reserve, List.mem_cons]
      exact or_left_comm
    · simp [own, hand, reserve]
  · simp only [hand, inHand, List.map_append, List.map_cons, List.map_nil,
      List.append_nil]
    exact horder
  · simp only [hand, List.map_append, List.filter_append, hcalled]
    simp
  · simp only [hand, List.filter_append, List.length_append, hrefused]
    rfl

theorem safe_released (hs : s.Safe) (hpc : s.pc = .released) :
    (s.proceed fail).Safe := by
  obtain ⟨howns, hclosed, horder, hcalled, hrefused, -⟩ := hs
  simp only [own, hpc] at howns
  simp only [inHand, hpc, List.append_nil] at horder
  simp only [proceed, hpc]
  split
  next fd peer s' haccept =>
    obtain ⟨fds, rest, halloc, hpending, rfl⟩ := accept_ok haccept
    refine ⟨?_, hclosed, ?_, hcalled, hrefused, ?_⟩
    · refine howns.opened halloc fun p => ?_
      simp only [own, Option.toList_some, List.map_cons, List.map_nil,
        List.mem_cons, List.not_mem_nil, or_false]
      exact or_comm
    · rw [← horder, hpending]
      simp only [inHand, Option.toList_some, List.append_assoc,
        List.singleton_append]
    · intro p hp
      cases hp
      rfl
  next =>
    refine ⟨howns, hclosed, ?_, hcalled, hrefused, ?_⟩
    · rw [← horder]
      simp only [inHand, Option.toList_none, List.append_nil]
    · intro p hp
      cases hp
      rfl

theorem safe_holding {peer : Option Endpoint} (hs : s.Safe)
    (hpc : s.pc = .holding peer) : (s.proceed fail).Safe := by
  have hholds := hs.holds peer hpc
  simp only [proceed, hpc]
  cases hidle : s.idleFd with
  | none =>
      rw [hidle] at hholds
      have hnone : peer = none := Option.isSome_eq_false_iff.1 hholds.symm
        |> Option.isNone_iff_eq_none.1
      subst hnone
      obtain ⟨howns, hclosed, horder, hcalled, hrefused, -⟩ := hs
      simp only [own, hpc, hidle, Option.toList_none, List.map_nil] at howns
      simp only [inHand, hpc, Option.toList_none] at horder
      simp only [close, refused, Option.toList_none, List.map_nil,
        List.append_nil]
      exact ⟨howns, hclosed, horder, hcalled, hrefused, by rintro p ⟨⟩⟩
  | some fd =>
      rw [hidle] at hholds
      obtain ⟨p, rfl⟩ := Option.isSome_iff_exists.1 hholds.symm
      refine safe_refuse hs [(s.listenFd, .listening)] (fun q => ?_)
        (by simp) (by simp only [inHand, hpc, Option.toList_some]) ?_ rfl
      · simp only [own, hpc, hidle, Option.toList_some, List.map_cons,
          List.map_nil, List.mem_cons, List.not_mem_nil, or_false]
        exact or_comm
      · intro s' hs'
        unfold inHand
        rw [hs']
        exact ⟨rfl, by rintro p ⟨⟩⟩

theorem safe_closed (hs : s.Safe) (hpc : s.pc = .closed) :
    (s.proceed fail).Safe := by
  obtain ⟨howns, hclosed, horder, hcalled, hrefused, -⟩ := hs
  simp only [own, hpc] at howns
  simp only [inHand, hpc] at horder
  simp only [proceed, hpc, openIdle]
  split
  next => exact ⟨howns, hclosed, horder, hcalled, hrefused, by rintro p ⟨⟩⟩
  next =>
    split
    next => exact ⟨howns, hclosed, horder, hcalled, hrefused, by rintro p ⟨⟩⟩
    next fd fds halloc =>
      refine ⟨howns.opened halloc fun p => ?_, hclosed, horder, hcalled,
        hrefused, by rintro p ⟨⟩⟩
      simp only [own, reserve, Option.toList_some, List.map_cons, List.map_nil,
        List.mem_cons, List.not_mem_nil, or_false]
      exact or_comm

theorem safe_proceed (hs : s.Safe) (fail : Option AcceptErrno) :
    (s.proceed fail).Safe := by
  cases hpc : s.pc with
  | resting =>
      simp only [proceed, hpc]
      exact hs
  | accepted connfd peer =>
      simp only [proceed, hpc]
      split
      next => exact safe_hand hs hpc
      next =>
        refine safe_refuse hs ((s.listenFd, .listening) :: s.reserve)
          (fun q => ?_) (by simp [reserve]) (by simp only [inHand, hpc]) ?_ rfl
        · simp only [own, hpc, List.mem_cons]
          exact or_left_comm
        · intro s' hs'
          unfold inHand
          rw [hs']
          exact ⟨rfl, by rintro p ⟨⟩⟩
  | full =>
      simp only [proceed, hpc]
      exact safe_closeIdle hs (by simp only [own, hpc]) (.inl rfl)
        (by simp only [inHand, hpc])
  | released => exact safe_released hs hpc
  | holding peer => exact safe_holding hs hpc
  | closed => exact safe_closed hs hpc
  | destroyed =>
      simp only [proceed, hpc]
      exact hs

-- ============================================================== the others

theorem safe_othersOpen (hs : s.Safe) : s.othersOpen.Safe := by
  unfold othersOpen
  split
  next => exact hs
  next fd fds halloc =>
    exact ⟨hs.owns.alloc_other halloc rfl, hs.closedOwn, hs.inOrder, hs.called,
      hs.refusedClosed, hs.holds⟩

theorem safe_othersClose (hs : s.Safe) (fd : Nat) : (s.othersClose fd).Safe := by
  unfold othersClose
  split
  next use hlookup =>
    split
    next => exact hs
    next huse =>
      exact ⟨hs.owns.close_other hlookup (Bool.not_eq_true _ ▸ huse),
        hs.closedOwn, hs.inOrder, hs.called, hs.refusedClosed, hs.holds⟩
  next => exact hs

/-- One action. -/
theorem safe_step (s : Acceptor) (a : AcceptorAct) (s' : Acceptor)
    (hs : s.Safe) (h : s.step a = .ok s') : s'.Safe := by
  cases a with
  | SetNewConnectionCb =>
      cases h
      exact ⟨hs.owns, hs.closedOwn, hs.inOrder, hs.called, hs.refusedClosed,
        hs.holds⟩
  | Listen =>
      simp only [step] at h
      split at h <;> cases h
      · exact ⟨hs.owns, hs.closedOwn, hs.inOrder, hs.called, hs.refusedClosed,
          hs.holds⟩
      · exact hs
  | HandleRead fail logErrno =>
      simp only [step] at h
      split at h
      next hcond =>
        simp only [Bool.and_eq_true, decide_eq_true_eq] at hcond
        exact safe_HandleRead hs hcond.2 h
      next =>
        cases h
        exact hs
  | proceed fail =>
      cases h
      exact safe_proceed hs fail
  | destroy =>
      simp only [step] at h
      split at h <;> cases h
      next hpc =>
        exact safe_closeIdle hs (by simp only [own, hpc]) (.inr rfl)
          (by simp only [inHand, hpc])
      next => exact hs
  | arrive peer =>
      simp only [step] at h
      split at h <;> cases h
      next =>
        refine ⟨hs.owns, hs.closedOwn, ?_, hs.called, hs.refusedClosed, hs.holds⟩
        rw [← hs.inOrder]
        exact (List.append_assoc ..).symm
      next => exact hs
  | othersOpen =>
      cases h
      exact safe_othersOpen hs
  | othersClose fd =>
      cases h
      exact safe_othersClose hs fd

end Steps

/-- Whatever the other threads of the process open and close in the
meantime, and whatever the kernel answers, the acceptor keeps to its own
and loses no connection. -/
theorem keeps_to_its_own {used : List Bool} {acts : List AcceptorAct}
    {s t : Acceptor} (hcreate : create used = .ok s)
    (hrun : run step s acts = .ok t) : t.Safe :=
  run_inv_all safe_step (safe_create hcreate) hrun

/-- A process of five numbers, one of them in use. A connection is handed
over; then, with the table full, another thread takes the number of the
reserve before the acceptor can accept with it, and closes it again before
the acceptor reopens `/dev/null`. -/
def robbed : List AcceptorAct :=
  [.SetNewConnectionCb, .Listen, .arrive ⟨1, 80⟩, .arrive ⟨2, 80⟩,
    .HandleRead none none, .proceed none, .othersOpen, .HandleRead none none,
    .proceed none, .othersOpen, .proceed none, .proceed none, .othersClose 2,
    .proceed none]

theorem keeps_to_its_own_robbed : ∃ s t,
    create [true, false, false, false, false] = .ok s
      ∧ run step s robbed = .ok t ∧ t.Safe
      ∧ t.closes = [some .devNull] ∧ t.idleFd = some 2 := by
  obtain ⟨s, hcreate, t, hrun, hcloses, hidle⟩ :
      Holds (create [true, false, false, false, false]) fun s =>
        Holds (run step s robbed) fun t =>
          t.closes = [some .devNull] ∧ t.idleFd = some 2 := by
    decide +kernel
  exact ⟨s, t, hcreate, hrun, keeps_to_its_own hcreate hrun, hcloses, hidle⟩

-- ======================================================== the backlog

/-- `n` in a row: those there is room for, and after them, with the
reserve, the others. -/
theorem Desk.serve_iterate (n : Nat) : ∀ d : Desk,
    serve^[n] d = {
      room := d.room - min n d.pending.length
      reserve := d.reserve
      pending := d.pending.drop (d.serves n)
      fates := d.fates
        ++ (d.pending.take (min n d.room)).map (fun peer => (peer, Fate.handed))
        ++ ((d.pending.take (d.serves n)).drop d.room).map
            fun peer => (peer, Fate.refused) } := by
  induction n with
  | zero =>
      intro d
      simp [serves]
  | succ n ih =>
      intro d
      rw [Function.iterate_succ_apply, ih]
      cases hpending : d.pending with
      | nil => simp [serve, hpending]
      | cons peer rest =>
          by_cases hroom : d.room = 0
          · cases hreserve : d.reserve with
            | true => simp [serve, serves, hpending, hroom, hreserve]
            | false => simp [serve, serves, hpending, hroom, hreserve]
          · obtain ⟨r, hr⟩ := Nat.exists_eq_succ_of_ne_zero hroom
            cases hreserve : d.reserve with
            | true => simp [serve, serves, hpending, hr, hreserve]
            | false => simp [serve, serves, hpending, hr, hreserve]

/-- Steps that another part of the acceptor has to make room for: at rest
there is nothing to proceed with. -/
theorem proceed_resting {s : Acceptor} (hpc : s.pc = .resting)
    (fail : Option AcceptErrno) : s.step (.proceed fail) = .ok s := by
  simp only [step, proceed, hpc]

/-- `HandleRead` starts, and `Accept` takes a connection. -/
theorem step_HandleRead_ok {s : Acceptor} {fds : FdTable FdUse} {fd : Nat}
    {peer : Endpoint} {rest : List Endpoint} (hlisten : s.listenning = true)
    (hpc : s.pc = .resting) (halloc : s.fds.alloc .accepted = some (fd, fds))
    (hpending : s.pending = peer :: rest) :
    s.step (.HandleRead none none)
      = .ok { s with fds := fds, pending := rest, pc := .accepted fd peer } := by
  simp [step, HandleRead, Accept, accept, hlisten, hpc, halloc, hpending]

/-- `HandleRead` starts, and the backlog is empty. -/
theorem step_HandleRead_empty {s : Acceptor} {fds : FdTable FdUse} {fd : Nat}
    (hlisten : s.listenning = true) (hpc : s.pc = .resting)
    (halloc : s.fds.alloc .accepted = some (fd, fds)) (hpending : s.pending = []) :
    s.step (.HandleRead none none) = .ok { s with pc := .resting } := by
  simp [step, HandleRead, Accept, accept, hlisten, hpc, halloc, hpending,
    AcceptErrno.expected]

/-- `HandleRead` starts, and no number is free. -/
theorem step_HandleRead_full {s : Acceptor} (hlisten : s.listenning = true)
    (hpc : s.pc = .resting) (halloc : s.fds.alloc .accepted = none) :
    s.step (.HandleRead none none) = .ok { s with pc := .full } := by
  simp [step, HandleRead, Accept, accept, hlisten, hpc, halloc,
    AcceptErrno.expected]

/-- At rest between two handlers, with a callback to hand to. -/
structure Serving (s : Acceptor) : Prop where
  resting : s.pc = .resting
  listens : s.listenning = true
  callback : s.newConnCb = true

section Handler

variable {s : Acceptor}

/-- The steps that are left when the handler is back at rest. -/
theorem run_proceeds {n : Nat} (hpc : s.pc = .resting) :
    run step s (List.replicate n (.proceed none)) = .ok s := by
  induction n with
  | zero => rfl
  | succ n ih =>
      rw [List.replicate_succ, run_cons_ok _ (proceed_resting hpc none)]
      exact ih

/-- An empty backlog is left alone. -/
theorem handler_empty {fds : FdTable FdUse} {fd : Nat} (hs : s.Serving)
    (halloc : s.fds.alloc .accepted = some (fd, fds)) (hpending : s.pending = []) :
    run step s handler = .ok s := by
  have hsame : { s with pc := .resting } = s := by
    rw [← hs.resting]
  have hstep := step_HandleRead_empty hs.listens hs.resting halloc hpending
  rw [hsame] at hstep
  unfold handler
  rw [run_cons_ok _ hstep]
  exact run_proceeds (n := 4) hs.resting

/-- With a number free, the first connection is handed over. -/
theorem handler_room {fds : FdTable FdUse} {fd : Nat} {peer : Endpoint}
    {rest : List Endpoint} (hs : s.Serving)
    (halloc : s.fds.alloc .accepted = some (fd, fds))
    (hpending : s.pending = peer :: rest) :
    ∃ s', run step s handler = .ok s' ∧ s'.Serving
      ∧ s'.desk = { s.desk with
          room := s.desk.room - 1
          pending := rest
          fates := s.fates ++ [(peer, .handed)] } := by
  obtain ⟨-, hlookup, hfree⟩ := FdTable.alloc_spec halloc
  have hfd : fds.lookup fd = some .accepted := by
    rw [hlookup, if_pos rfl]
  let taken : Acceptor :=
    { s with fds := fds, pending := rest, pc := .accepted fd peer }
  let handed : Acceptor := { taken.hand fd peer with pc := .resting }
  have hproceed : step taken (.proceed none) = .ok handed := by
    simp only [step, proceed, taken]
    rw [if_pos hs.callback]
  refine ⟨handed, ?_, ⟨rfl, hs.listens, hs.callback⟩, ?_⟩
  · unfold handler
    rw [run_cons_ok _ (step_HandleRead_ok hs.listens hs.resting halloc hpending),
      run_cons_ok _ hproceed]
    exact run_proceeds (n := 3) rfl
  · have hroom : (fds.put fd .connection).free = s.fds.free - 1 := by
      rw [FdTable.free_put hfd]
      omega
    simp only [desk, handed, taken, hand, hroom]

/-- Without a number and without the reserve, nothing happens. -/
theorem handler_starved (hs : s.Serving) (hfull : s.fds.free = 0)
    (hidle : s.idleFd = none) : run step s handler = .ok s := by
  have hnone : ∀ use : FdUse, s.fds.alloc use = none :=
    fun use => FdTable.alloc_eq_none.2 hfull
  have hsame : { s with idleFd := none, pc := .resting } = s := by
    rw [← hs.resting, ← hidle]
  unfold handler
  rw [run_cons_ok _ (step_HandleRead_full hs.listens hs.resting (hnone _))]
  simp only [run, step, proceed, close, accept, refused, openIdle, hidle, hnone,
    Option.toList_none, List.map_nil, List.append_nil]
  rw [hsame]

/-- Without a number the reserve turns the first connection away, and is
the reserve again. -/
theorem handler_reserve {fd : Nat} (hsafe : s.Safe) (hs : s.Serving)
    (hfull : s.fds.free = 0) (hidle : s.idleFd = some fd) :
    ∃ s', run step s handler = .ok s' ∧ s'.Serving
      ∧ s'.desk = { s.desk with
          pending := s.pending.tail
          fates := s.fates ++ s.pending.head?.toList.map fun peer =>
            (peer, .refused) } := by
  have hlookup : s.fds.lookup fd = some .devNull := by
    refine (hsafe.owns fd .devNull rfl).2 ?_
    simp only [own, hs.resting, reserve, hidle, Option.toList_some, List.map_cons,
      List.map_nil, List.mem_cons, List.not_mem_nil, or_false, or_true]
  have hone : (s.fds.close fd).free = 1 := by
    rw [FdTable.free_close hlookup, hfull]
  obtain ⟨n, fds, halloc⟩ :=
    FdTable.exists_alloc (by rw [hone]; decide : (s.fds.close fd).free ≠ 0)
      FdUse.accepted
  obtain ⟨n', fds', halloc'⟩ :=
    FdTable.exists_alloc (by rw [hone]; decide : (s.fds.close fd).free ≠ 0)
      FdUse.devNull
  have hfree : fds'.free = s.fds.free := by
    have := (FdTable.alloc_spec halloc').2.2
    omega
  unfold handler
  rw [run_cons_ok _ (step_HandleRead_full hs.listens hs.resting
    (FdTable.alloc_eq_none.2 hfull))]
  cases hpending : s.pending with
  | nil =>
      simp only [run, step, proceed, close, accept, refused, openIdle, hidle,
        halloc, halloc', Option.toList_none, List.map_nil, List.append_nil]
      refine ⟨_, rfl, ⟨rfl, hs.listens, hs.callback⟩, ?_⟩
      simp only [desk, hfree, hidle, hpending, List.tail_nil, List.head?_nil,
        Option.toList_none, List.map_nil, List.append_nil, Option.isSome_some]
  | cons peer rest =>
      have hback : fds.close n = s.fds.close fd := FdTable.close_alloc halloc
      simp only [run, step, proceed, close, accept, refused, openIdle, hidle,
        halloc, hback, halloc', Option.toList_some, List.map_cons, List.map_nil]
      refine ⟨_, rfl, ⟨rfl, hs.listens, hs.callback⟩, ?_⟩
      simp only [desk, hfree, hidle, List.tail_cons, List.head?_cons,
        Option.toList_some, List.map_cons, List.map_nil, Option.isSome_some]

/-- A handler does what the desk does. -/
theorem handler_serves (hsafe : s.Safe) (hs : s.Serving) :
    ∃ s', run step s handler = .ok s' ∧ s'.Serving ∧ s'.desk = s.desk.serve := by
  by_cases hfull : s.fds.free = 0
  · cases hidle : s.idleFd with
    | none =>
        refine ⟨s, handler_starved hs hfull hidle, hs, ?_⟩
        unfold Desk.serve
        simp only [desk, hfull, hidle, Option.isSome_none, if_true,
          Bool.false_eq_true, if_false]
        split <;> rfl
    | some fd =>
        obtain ⟨s', hrun, hserving, hdesk⟩ := handler_reserve hsafe hs hfull hidle
        refine ⟨s', hrun, hserving, ?_⟩
        rw [hdesk]
        unfold Desk.serve
        cases hpending : s.pending <;>
          simp [desk, hfull, hidle, hpending]
  · obtain ⟨fd, fds, halloc⟩ := FdTable.exists_alloc hfull FdUse.accepted
    cases hpending : s.pending with
    | nil =>
        refine ⟨s, handler_empty hs halloc hpending, hs, ?_⟩
        simp only [Desk.serve, desk, hpending]
    | cons peer rest =>
        obtain ⟨s', hrun, hserving, hdesk⟩ := handler_room hs halloc hpending
        refine ⟨s', hrun, hserving, ?_⟩
        rw [hdesk]
        simp only [Desk.serve, desk, hpending, hfull, if_false]

/-- `n` handlers do what the desk does `n` times. -/
theorem handlers_serve (n : Nat) : ∀ {s : Acceptor}, s.Safe → s.Serving →
    ∃ s', run step s (handlers n) = .ok s' ∧ s'.Serving
      ∧ s'.desk = Desk.serve^[n] s.desk := by
  induction n with
  | zero =>
      intro s _ hs
      exact ⟨s, rfl, hs, rfl⟩
  | succ n ih =>
      intro s hsafe hs
      obtain ⟨s₁, hrun₁, hs₁, hdesk₁⟩ := handler_serves hsafe hs
      obtain ⟨s₂, hrun₂, hs₂, hdesk₂⟩ := ih (run_inv_all safe_step hsafe hrun₁) hs₁
      refine ⟨s₂, ?_, hs₂, ?_⟩
      · unfold handlers
        rw [List.replicate_succ, List.flatten_cons, run_append _ hrun₁]
        exact hrun₂
      · rw [hdesk₂, hdesk₁, Function.iterate_succ_apply]

end Handler

/-- From wherever a run has led, `n` undisturbed handlers hand over as many
connections as there are free numbers, the first of the backlog first, and
with the reserve they turn the rest away, and have it still; without it
the rest stays. So `n` handlers empty a backlog of `n` exactly when the
reserve is there or the room is. -/
theorem handlers_drain {used : List Bool} {acts : List AcceptorAct}
    {s t : Acceptor} (hcreate : create used = .ok s) (hrun : run step s acts = .ok t)
    (hserving : t.Serving) (n : Nat) :
    Holds (run step t (handlers n)) fun l => l.Serving
      ∧ l.idleFd.isSome = t.idleFd.isSome
      ∧ l.fds.free = t.fds.free - min n t.pending.length
      ∧ l.pending = t.pending.drop (t.desk.serves n)
      ∧ l.fates = t.fates
        ++ (t.pending.take (min n t.fds.free)).map (fun peer => (peer, .handed))
        ++ ((t.pending.take (t.desk.serves n)).drop t.fds.free).map
            (fun peer => (peer, .refused))
      ∧ (t.pending.length ≤ n → (l.pending = []
          ↔ t.idleFd.isSome = true ∨ t.pending.length ≤ t.fds.free)) := by
  obtain ⟨l, hhandlers, hl, hdesk⟩ :=
    handlers_serve n (keeps_to_its_own hcreate hrun) hserving
  rw [Desk.serve_iterate] at hdesk
  have hreserve := congrArg Desk.reserve hdesk
  have hroom := congrArg Desk.room hdesk
  have hpending := congrArg Desk.pending hdesk
  have hfates := congrArg Desk.fates hdesk
  refine ⟨l, hhandlers, hl, hreserve, hroom, hpending, hfates, fun hn => ?_⟩
  rw [show l.pending = t.pending.drop (t.desk.serves n) from hpending,
    List.drop_eq_nil_iff]
  change t.pending.length
    ≤ (if t.idleFd.isSome = true then n else min n t.fds.free) ↔ _
  by_cases hidle : t.idleFd.isSome = true
  · rw [if_pos hidle]
    exact iff_of_true hn (.inl hidle)
  · rw [if_neg hidle, or_iff_right hidle]
    omega

/-- Three connections wait for a process that has one number left. -/
def crowd : List AcceptorAct :=
  [.SetNewConnectionCb, .Listen, .arrive ⟨1, 80⟩, .arrive ⟨2, 80⟩,
    .arrive ⟨3, 80⟩]

theorem handlers_drain_crowd : ∃ s t l, create [true, false, false, false] = .ok s
    ∧ run step s crowd = .ok t ∧ run step t (handlers 3) = .ok l
    ∧ l.pending = [] ∧ l.idleFd.isSome = true
    ∧ l.fates = [(⟨1, 80⟩, .handed), (⟨2, 80⟩, .refused), (⟨3, 80⟩, .refused)] := by
  obtain ⟨s, hcreate, t, hrun, hserving, hfree, hidle, hpending, hfates⟩ :
      Holds (create [true, false, false, false]) fun s =>
        Holds (run step s crowd) fun t =>
          (t.pc = .resting ∧ t.listenning = true ∧ t.newConnCb = true)
            ∧ t.fds.free = 1 ∧ t.idleFd.isSome = true
            ∧ t.pending = [⟨1, 80⟩, ⟨2, 80⟩, ⟨3, 80⟩] ∧ t.fates = [] := by
    decide +kernel
  obtain ⟨l, hl, -, hreserve, -, hrest, hall, -⟩ :=
    handlers_drain hcreate hrun ⟨hserving.1, hserving.2.1, hserving.2.2⟩ 3
  have hserves : t.desk.serves 3 = 3 := by
    simp only [Desk.serves, desk, hidle, if_true]
  rw [hserves, hpending] at hrest
  rw [hserves, hpending, hfates, hfree] at hall
  exact ⟨s, t, l, hcreate, hrun, hl, hrest, hreserve.trans hidle, hall⟩

-- ============================================================ the reserve

/-- The acceptor counts on a free number: it has given the reserve up, or
the connection it took in its place. -/
def needsNumber (s : Acceptor) : Bool :=
  match s.pc with
  | .released | .holding none | .closed => true
  | .holding (some _) | .resting | .accepted _ _ | .full | .destroyed => false

/-- No other thread opens a descriptor while the acceptor counts on a free
number, and `::open` fails at nothing else. -/
def Undisturbed (s : Acceptor) : AcceptorAct → Prop
  | .othersOpen => s.needsNumber = false
  | .proceed fail => s.pc = .closed → fail = none
  | _ => True

instance : ∀ (s : Acceptor) (a : AcceptorAct), Decidable (s.Undisturbed a)
  | s, .othersOpen => inferInstanceAs (Decidable (s.needsNumber = false))
  | s, .proceed fail => inferInstanceAs (Decidable (s.pc = .closed → fail = none))
  | _, .SetNewConnectionCb | _, .Listen | _, .HandleRead _ _ | _, .destroy
  | _, .arrive _ | _, .othersClose _ => .isTrue trivial

/-- The reserve is there, or the number to open it under is. -/
def Kept (s : Acceptor) : Prop :=
  match s.pc with
  | .resting | .full | .accepted _ _ => s.idleFd.isSome = true
  | .released | .holding none | .closed => s.fds.free ≠ 0
  | .holding (some _) | .destroyed => True

section Reserve

variable {s s' : Acceptor}

theorem free_le_close (t : FdTable FdUse) (fd : Nat) :
    t.free ≤ (t.close fd).free := by
  cases hlookup : t.lookup fd with
  | none => rw [FdTable.close_of_none hlookup]
  | some use =>
      rw [FdTable.free_close hlookup]
      exact Nat.le_succ _

/-- A number comes free when the acceptor closes what it has. -/
theorem free_close_ne_zero {t : FdTable FdUse} {fd : Nat} {use : FdUse}
    (h : t.lookup fd = some use) : (t.close fd).free ≠ 0 := by
  rw [FdTable.free_close h]
  exact Nat.succ_ne_zero _

/-- What holds of the number of free numbers when there are more. -/
theorem Kept.mono (h : s.Kept) (hpc : s'.pc = s.pc) (hidle : s'.idleFd = s.idleFd)
    (hfree : s.needsNumber = true → s.fds.free ≤ s'.fds.free) : s'.Kept := by
  unfold Kept at h ⊢
  unfold needsNumber at hfree
  rw [hpc, hidle]
  split at h <;> simp_all <;> omega

theorem kept_HandleRead {fail logErrno : Option AcceptErrno} (hs : s.Kept)
    (hpc : s.pc = .resting) (h : s.HandleRead fail logErrno = .ok s') :
    s'.Kept := by
  have hidle : s.idleFd.isSome = true := by
    simpa only [Kept, hpc] using hs
  unfold HandleRead at h
  obtain ⟨r, hr, h⟩ := bind_ok_inv h
  split at h
  next connfd peer s₁ =>
    cases h
    unfold Accept at hr
    split at hr
    next r' haccept =>
      cases hr
      obtain ⟨fds, rest, -, -, rfl⟩ := accept_ok haccept
      exact hidle
    next => split at hr <;> cases hr
  next e =>
    cases h
    by_cases herrno : logErrno.getD e = .EMFILE
    · rw [if_pos herrno]
      exact hidle
    · rw [if_neg herrno]
      exact hidle

theorem kept_proceed {fail : Option AcceptErrno} (hsafe : s.Safe) (hs : s.Kept)
    (hC : s.pc = .closed → fail = none) : (s.proceed fail).Kept := by
  cases hpc : s.pc with
  | resting | destroyed =>
      simp only [proceed, hpc]
      exact hs
  | accepted connfd peer =>
      simp only [Kept, hpc] at hs
      simp only [proceed, hpc]
      split
      next => exact hs
      next => exact hs
  | full =>
      simp only [Kept, hpc] at hs
      obtain ⟨fd, hidle⟩ := Option.isSome_iff_exists.1 hs
      have hlookup : s.fds.lookup fd = some .devNull :=
        (hsafe.owns fd .devNull rfl).2 (by simp [own, hpc, reserve, hidle])
      simp only [proceed, hpc, hidle]
      exact free_close_ne_zero hlookup
  | released =>
      simp only [Kept, hpc] at hs
      simp only [proceed, hpc]
      split
      next fd peer s' haccept =>
        obtain ⟨fds, rest, -, -, rfl⟩ := accept_ok haccept
        trivial
      next => exact hs
  | holding peer =>
      have hholds := hsafe.holds peer hpc
      cases peer with
      | none =>
          have hidle : s.idleFd = none := by
            cases h : s.idleFd with
            | none => rfl
            | some fd =>
                rw [h] at hholds
                cases hholds
          simp only [Kept, hpc] at hs
          simp only [proceed, hpc, hidle]
          exact hs
      | some p =>
          obtain ⟨fd, hidle⟩ := Option.isSome_iff_exists.1 hholds
          have hlookup : s.fds.lookup fd = some .accepted :=
            (hsafe.owns fd .accepted rfl).2 (by simp [own, hpc, hidle])
          simp only [proceed, hpc, hidle]
          exact free_close_ne_zero hlookup
  | closed =>
      simp only [Kept, hpc] at hs
      obtain ⟨fd, fds, halloc⟩ := FdTable.exists_alloc hs FdUse.devNull
      simp only [proceed, hpc, openIdle, hC hpc, halloc]
      rfl

theorem kept_step (s : Acceptor) (a : AcceptorAct) (s' : Acceptor)
    (hs : s.Safe ∧ s.Kept) (hC : s.Undisturbed a) (h : s.step a = .ok s') :
    s'.Safe ∧ s'.Kept := by
  refine ⟨safe_step s a s' hs.1 h, ?_⟩
  obtain ⟨hsafe, hs⟩ := hs
  cases a with
  | SetNewConnectionCb =>
      cases h
      exact hs.mono rfl rfl fun _ => Nat.le_refl _
  | Listen =>
      simp only [step] at h
      split at h <;> cases h
      · exact hs.mono rfl rfl fun _ => Nat.le_refl _
      · exact hs
  | HandleRead fail logErrno =>
      simp only [step] at h
      split at h
      next hcond =>
        simp only [Bool.and_eq_true, decide_eq_true_eq] at hcond
        exact kept_HandleRead hs hcond.2 h
      next =>
        cases h
        exact hs
  | proceed fail =>
      cases h
      exact kept_proceed hsafe hs hC
  | destroy =>
      simp only [step] at h
      split at h <;> cases h
      · trivial
      · exact hs
  | arrive peer =>
      simp only [step] at h
      split at h <;> cases h
      · exact hs.mono rfl rfl fun _ => Nat.le_refl _
      · exact hs
  | othersOpen =>
      cases h
      unfold othersOpen
      split
      next => exact hs
      next => exact hs.mono rfl rfl fun hneeds => by rw [hC] at hneeds; cases hneeds
  | othersClose fd =>
      cases h
      unfold othersClose
      split
      next use hlookup =>
        split
        next => exact hs
        next => exact hs.mono rfl rfl fun _ => free_le_close s.fds fd
      next => exact hs

end Reserve

theorem kept_create {used : List Bool} {s : Acceptor}
    (h : create used = .ok s) : s.Kept := by
  unfold create at h
  split at h
  next => cases h
  next =>
    split at h <;> cases h
    rfl

/-- The reserve outlives every rush: as long as no other thread opens a
descriptor just while the acceptor has given its number up, `idle_fd_` is
open again whenever `HandleRead` is over, and so the backlog never gets
stuck. -/
theorem reserve_kept {used : List Bool} {acts : List AcceptorAct}
    {s t : Acceptor} (hcreate : create used = .ok s)
    (hrun : run step s acts = .ok t) (hC : Along step Undisturbed s acts)
    (hpc : t.pc = .resting) :
    ∃ fd, t.idleFd = some fd ∧ t.fds.lookup fd = some .devNull := by
  obtain ⟨hsafe, hkept⟩ : t.Safe ∧ t.Kept :=
    run_inv kept_step ⟨safe_create hcreate, kept_create hcreate⟩ hC hrun
  simp only [Kept, hpc] at hkept
  obtain ⟨fd, hidle⟩ := Option.isSome_iff_exists.1 hkept
  exact ⟨fd, hidle, (hsafe.owns fd .devNull rfl).2
    (by simp [own, hpc, reserve, hidle])⟩

/-- Another thread fills the table while nobody counts on a number, and
tries once more while the acceptor has the connection. -/
def rush : List AcceptorAct :=
  [.SetNewConnectionCb, .Listen, .arrive ⟨1, 80⟩, .othersOpen, .othersOpen,
    .HandleRead none none, .proceed none, .proceed none, .othersOpen,
    .proceed none, .proceed none, .othersOpen]

theorem reserve_kept_rush : ∃ s t, create [true, false, false, false] = .ok s
    ∧ run step s rush = .ok t ∧ t.fates = [(⟨1, 80⟩, .refused)]
    ∧ ∃ fd, t.idleFd = some fd ∧ t.fds.lookup fd = some .devNull := by
  obtain ⟨s, hcreate, ⟨t, hrun, hpc, hfates⟩, hcheck⟩ :
      Holds (create [true, false, false, false]) fun s =>
        Holds (run step s rush) (fun t =>
            t.pc = .resting ∧ t.fates = [(⟨1, 80⟩, .refused)])
          ∧ check step Undisturbed s rush = true := by
    decide +kernel
  exact ⟨s, t, hcreate, hrun, hfates,
    reserve_kept hcreate hrun (along_of_check hcheck) hpc⟩

end Acceptor

end Cobra
