/-
Whether the registry of a server is faithful, over every sequence of
establishing and removing connections.

# Names

A name is the server's name, the host and port and the counter. The text
of the last three has at most 26 characters, so `snprintf` cuts nothing,
and the signed format of the unsigned counter is injective: two names of
one server are equal exactly when the counter values are
(`connName_injective`). What is left is the counter itself, which has 32
bits.

# The exact condition

`faithful_iff_fresh`: the registry is faithful after a run, and no
removal has failed its assertion, exactly when every connection was
established with a counter value that no live connection of the server
has. The other direction needs that a collision is never repaired. It is
not, because from then on some name has more live connections than
entries: a removal under that name takes the entry with it (`Short`).

`counter_wraps` is the run: one connection stays open while the process
establishes `2^32 - 1` others.
-/
import Cobra.Server
import Mathlib.Data.List.GetD
import Mathlib.Data.List.Nodup

namespace Cobra

open Machine

-- ================================================================ names

namespace Registry

variable {r : Registry}

/-- Nothing of a name is cut, and the counter can be read off it. -/
theorem connName_injective (hshort : r.hostport.length ≤ 13)
    {i j : BitVec 32} (h : r.connName i = r.connName j) : i = j := by
  have hcut : ∀ id : BitVec 32,
      snprintf 32 ([':'] ++ r.hostport ++ ['#'] ++ formatD id)
        = [':'] ++ r.hostport ++ ['#'] ++ formatD id := by
    intro id
    have hid := length_formatD id
    apply List.take_of_length_le
    simp only [List.length_append, List.length_singleton]
    omega
  unfold connName at h
  rw [hcut, hcut] at h
  exact formatD_injective (List.append_cancel_left (List.append_cancel_left h))

/-- A connection keeps its name when another one is established. -/
theorem nameOf_EstablishConnection {c : Nat} (h : c < r.ids.length) :
    r.EstablishConnection.nameOf c = r.nameOf c := by
  show r.connName ((r.ids ++ [r.nextConnId]).getD c 0) = r.connName _
  rw [List.getD_append _ _ _ _ h]

theorem nameOf_new :
    r.EstablishConnection.nameOf r.ids.length = r.connName r.nextConnId := by
  show r.connName ((r.ids ++ [r.nextConnId]).getD r.ids.length 0) = _
  rw [List.getD_append_right _ _ _ _ le_rfl, Nat.sub_self]
  rfl

end Registry

namespace RegistryRun

variable {s s' : RegistryRun}

/-- The names of the live connections. -/
def names (s : RegistryRun) : List (List Char) := s.live.map s.reg.nameOf

/-- The registry is faithful. -/
structure Faithful (s : RegistryRun) : Prop where
  /-- the live connections have different names -/
  distinct : s.names.Nodup
  /-- each is found under its name -/
  mapped : ∀ c ∈ s.live,
    Finmap.lookup (s.reg.nameOf c) s.reg.connections = some c
  /-- and nothing else is -/
  only : ∀ name c, Finmap.lookup name s.reg.connections = some c →
    c ∈ s.live ∧ s.reg.nameOf c = name
  /-- every removal has erased the connection's own entry -/
  own : ∀ e ∈ s.erased, e.2 = some e.1

/-- No live connection has the counter value that the next one gets. -/
def FreshId (s : RegistryRun) (a : RegistryAct) : Prop :=
  a = .EstablishConnection →
    ∀ c ∈ s.live, s.reg.ids.getD c 0 ≠ s.reg.nextConnId

/-- What holds besides in every run. -/
structure Inv (s : RegistryRun) : Prop where
  short : s.reg.hostport.length ≤ 13
  made : ∀ c ∈ s.live, c < s.reg.ids.length
  nodup : s.live.Nodup
  faithful : Faithful s

theorem inv_create (e : Endpoint) (name : List Char) (id : BitVec 32) :
    Inv (create e name id) where
  short := e.length_toIpPort
  made := by simp [create]
  nodup := List.nodup_nil
  faithful := by
    refine ⟨List.nodup_nil, by simp [create], fun n c h => ?_, by simp [create]⟩
    cases h

-- ====================================================== the three steps

/-- The run with one connection more. -/
def established (s : RegistryRun) : RegistryRun :=
  { s with
    reg := s.reg.EstablishConnection
    live := s.live ++ [s.reg.ids.length] }

/-- The run with one connection less. -/
def removed (s : RegistryRun) (c : Nat) : RegistryRun where
  reg := { s.reg with
    connections := Finmap.erase (s.reg.nameOf c) s.reg.connections }
  live := s.live.erase c
  erased := s.erased
    ++ [(c, Finmap.lookup (s.reg.nameOf c) s.reg.connections)]

/-- What a step can do. -/
theorem step_cases {a : RegistryAct} (h : s.step a = .ok s') :
    (a = .EstablishConnection ∧ s' = s.established)
    ∨ (∃ c, c ∈ s.live
      ∧ Finmap.lookup (s.reg.nameOf c) s.reg.connections ≠ none
      ∧ s' = s.removed c)
    ∨ (∃ id, s' = { s with reg := { s.reg with nextConnId := id } }) := by
  cases a with
  | EstablishConnection =>
      cases h
      exact .inl ⟨rfl, rfl⟩
  | RemoveConnectionInLoop c =>
      simp only [step] at h
      split at h
      next hc =>
        obtain ⟨reg, hreg, h⟩ := bind_ok_inv h
        obtain ⟨u, hone, hreg⟩ := bind_ok_inv hreg
        cases hreg
        cases h
        exact .inr (.inl ⟨c, hc, require_inv hone, rfl⟩)
      next =>
        cases h
        exact .inr (.inr ⟨s.reg.nextConnId, rfl⟩)
  | otherServer =>
      cases h
      exact .inr (.inr ⟨_, rfl⟩)

theorem names_established (h : ∀ c ∈ s.live, c < s.reg.ids.length) :
    s.established.names
      = s.names ++ [s.reg.connName s.reg.nextConnId] := by
  show (s.live ++ [s.reg.ids.length]).map s.reg.EstablishConnection.nameOf = _
  rw [List.map_append, List.map_singleton, Registry.nameOf_new]
  refine congrArg (· ++ _) (List.map_congr_left fun c hc => ?_)
  exact Registry.nameOf_EstablishConnection (h c hc)

/-- A removal takes one occurrence of the name away. -/
theorem count_names_removed {c : Nat} (hc : c ∈ s.live) (name : List Char) :
    s.names.count name
      = (s.removed c).names.count name
        + if s.reg.nameOf c = name then 1 else 0 := by
  have hperm : s.names.Perm (s.reg.nameOf c :: (s.removed c).names) :=
    (List.perm_cons_erase hc).map s.reg.nameOf
  rw [hperm.count_eq, List.count_cons]
  simp only [beq_iff_eq]

theorem made_established (h : ∀ c ∈ s.live, c < s.reg.ids.length) :
    ∀ c ∈ s.established.live, c < s.established.reg.ids.length := by
  intro c hc
  show c < (s.reg.ids ++ [s.reg.nextConnId]).length
  rw [List.length_append, List.length_singleton]
  rcases List.mem_append.1 hc with hc | hc
  · have := h c hc
    omega
  · rw [List.mem_singleton.1 hc]
    omega

-- ============================================================ faithful

theorem inv_established (h : Inv s)
    (hfresh : ∀ c ∈ s.live, s.reg.ids.getD c 0 ≠ s.reg.nextConnId) :
    Inv s.established := by
  have hnew : ∀ c ∈ s.live,
      s.reg.nameOf c ≠ s.reg.connName s.reg.nextConnId := by
    intro c hc heq
    exact hfresh c hc (Registry.connName_injective h.short heq)
  have hf := h.faithful
  refine ⟨h.short, made_established h.made, ?_, ?_, ?_, ?_, hf.own⟩
  · refine List.nodup_append'.2 ⟨h.nodup, List.nodup_singleton _, ?_⟩
    intro c hc hc'
    rw [List.mem_singleton.1 hc'] at hc
    exact absurd (h.made _ hc) (lt_irrefl _)
  · rw [names_established h.made]
    refine List.nodup_append'.2 ⟨hf.distinct, List.nodup_singleton _, ?_⟩
    intro name hname hname'
    obtain ⟨c, hc, rfl⟩ := List.mem_map.1 hname
    exact hnew c hc (List.mem_singleton.1 hname')
  · intro c hc
    show Finmap.lookup (s.reg.EstablishConnection.nameOf c)
      (Finmap.insert (s.reg.connName s.reg.nextConnId) s.reg.ids.length
        s.reg.connections) = some c
    rcases List.mem_append.1 hc with hc | hc
    · rw [Registry.nameOf_EstablishConnection (h.made c hc),
        Finmap.lookup_insert_of_ne _ (hnew c hc)]
      exact hf.mapped c hc
    · rw [List.mem_singleton.1 hc, Registry.nameOf_new]
      exact Finmap.lookup_insert _
  · intro name c hlook
    show c ∈ s.live ++ [s.reg.ids.length]
      ∧ s.reg.EstablishConnection.nameOf c = name
    change Finmap.lookup name
      (Finmap.insert (s.reg.connName s.reg.nextConnId) s.reg.ids.length
        s.reg.connections) = some c at hlook
    by_cases hname : name = s.reg.connName s.reg.nextConnId
    · subst hname
      rw [Finmap.lookup_insert] at hlook
      cases hlook
      exact ⟨List.mem_append_right _ (List.mem_singleton_self _),
        Registry.nameOf_new⟩
    · rw [Finmap.lookup_insert_of_ne _ hname] at hlook
      obtain ⟨hc, hn⟩ := hf.only name c hlook
      refine ⟨List.mem_append_left _ hc, ?_⟩
      rw [Registry.nameOf_EstablishConnection (h.made c hc)]
      exact hn

theorem inv_removed (h : Inv s) {c : Nat} (hc : c ∈ s.live) :
    Inv (s.removed c) := by
  have hf := h.faithful
  have hinj : ∀ c' ∈ s.live, s.reg.nameOf c' = s.reg.nameOf c → c' = c :=
    fun c' hc' heq => List.inj_on_of_nodup_map hf.distinct hc' hc heq
  have hmem : ∀ c', c' ∈ s.live.erase c ↔ c' ≠ c ∧ c' ∈ s.live :=
    fun c' => h.nodup.mem_erase_iff
  refine ⟨h.short, fun c' hc' => h.made c' ((hmem c').1 hc').2,
    h.nodup.erase c, ?_, fun c' hc' => ?_, fun name c' hlook => ?_,
    fun e he => ?_⟩
  · exact hf.distinct.sublist (List.erase_sublist.map _)
  · obtain ⟨hne, hlive⟩ := (hmem c').1 hc'
    show Finmap.lookup (s.reg.nameOf c')
      (Finmap.erase (s.reg.nameOf c) s.reg.connections) = some c'
    rw [Finmap.lookup_erase_ne (fun heq => hne (hinj c' hlive heq))]
    exact hf.mapped c' hlive
  · change Finmap.lookup name
      (Finmap.erase (s.reg.nameOf c) s.reg.connections) = some c' at hlook
    by_cases hname : name = s.reg.nameOf c
    · subst hname
      rw [Finmap.lookup_erase] at hlook
      cases hlook
    · rw [Finmap.lookup_erase_ne hname] at hlook
      obtain ⟨hlive, hn⟩ := hf.only name c' hlook
      refine ⟨(hmem c').2 ⟨fun heq => hname ?_, hlive⟩, hn⟩
      rw [← heq]
      exact hn.symm
  · rcases List.mem_append.1 he with he | he
    · exact hf.own e he
    · rw [List.mem_singleton.1 he]
      exact hf.mapped c hc

/-- A removal finds the entry. -/
theorem step_remove (h : Inv s) {c : Nat} (hc : c ∈ s.live) :
    s.step (.RemoveConnectionInLoop c) = .ok (s.removed c) := by
  have hsome : Finmap.lookup (s.reg.nameOf c) s.reg.connections ≠ none := by
    rw [h.faithful.mapped c hc]
    exact Option.some_ne_none _
  simp only [step, Registry.RemoveConnectionInLoop, if_pos hc,
    require_bind hsome, ok_bind]
  rfl

/-- A step with a fresh counter value succeeds and keeps the registry
faithful. -/
theorem inv_step (h : Inv s) {a : RegistryAct} (hC : FreshId s a) :
    ∃ s', s.step a = .ok s' ∧ Inv s' := by
  cases a with
  | EstablishConnection => exact ⟨_, rfl, inv_established h (hC rfl)⟩
  | RemoveConnectionInLoop c =>
      by_cases hc : c ∈ s.live
      · exact ⟨s.removed c, step_remove h hc, inv_removed h hc⟩
      · exact ⟨s, by simp only [step, if_neg hc], h⟩
  | otherServer =>
      exact ⟨_, rfl, h.short, h.made, h.nodup, h.faithful.distinct,
        h.faithful.mapped, h.faithful.only, h.faithful.own⟩

-- ============================================================= collided

/-- How many entries a name has. -/
def entries (s : RegistryRun) (name : List Char) : Nat :=
  if Finmap.lookup name s.reg.connections = none then 0 else 1

/-- Some name has more live connections than entries. -/
structure Short (s : RegistryRun) : Prop where
  made : ∀ c ∈ s.live, c < s.reg.ids.length
  missing : ∃ name, s.entries name < s.names.count name

theorem Short.not_faithful (h : Short s) : ¬ Faithful s := by
  intro hf
  obtain ⟨name, hlt⟩ := h.missing
  have hle := List.nodup_iff_count_le_one.1 hf.distinct name
  have hpos : 0 < s.names.count name := by omega
  obtain ⟨c, hc, rfl⟩ := List.mem_map.1 (List.count_pos_iff.1 hpos)
  have hone : s.entries (s.reg.nameOf c) = 1 := by
    unfold entries
    rw [hf.mapped c hc, if_neg (Option.some_ne_none _)]
  omega

/-- Establishing under a name that is taken. -/
theorem short_established (hmade : ∀ c ∈ s.live, c < s.reg.ids.length)
    (htaken : s.reg.connName s.reg.nextConnId ∈ s.names) :
    Short s.established := by
  refine ⟨made_established hmade, s.reg.connName s.reg.nextConnId, ?_⟩
  have hpos := List.count_pos_iff.2 htaken
  have hle : s.established.entries (s.reg.connName s.reg.nextConnId) ≤ 1 := by
    unfold entries
    split <;> omega
  rw [names_established hmade, List.count_append, List.count_singleton_self]
  omega

/-- Nothing brings a lost entry back. -/
theorem Short.step (h : Short s) {a : RegistryAct} (hok : s.step a = .ok s') :
    Short s' := by
  obtain ⟨name, hlt⟩ := h.missing
  rcases step_cases hok with ⟨-, rfl⟩ | ⟨c, hc, hsome, rfl⟩ | ⟨id, rfl⟩
  · by_cases hname : name = s.reg.connName s.reg.nextConnId
    · refine short_established h.made ?_
      rw [← hname]
      exact List.count_pos_iff.1 (by omega)
    · refine ⟨made_established h.made, name, ?_⟩
      have hsame : s.established.entries name = s.entries name := by
        show (if Finmap.lookup name (Finmap.insert _ _ s.reg.connections)
          = none then 0 else 1) = _
        rw [Finmap.lookup_insert_of_ne _ hname]
        rfl
      rw [names_established h.made, List.count_append, hsame]
      omega
  · refine ⟨fun c' hc' => h.made c' (List.mem_of_mem_erase hc'), name, ?_⟩
    have hcount := count_names_removed hc name
    by_cases hname : s.reg.nameOf c = name
    · -- the removal has taken the entry, and not the last connection
      rw [if_pos hname] at hcount
      have hbefore : s.entries name = 1 := by
        unfold entries
        rw [← hname, if_neg hsome]
      have hafter : (s.removed c).entries name = 0 := by
        show (if Finmap.lookup name
          (Finmap.erase (s.reg.nameOf c) s.reg.connections) = none
            then 0 else 1) = 0
        rw [hname, Finmap.lookup_erase, if_pos rfl]
      omega
    · rw [if_neg hname] at hcount
      have hsame : (s.removed c).entries name = s.entries name := by
        show (if Finmap.lookup name
          (Finmap.erase (s.reg.nameOf c) s.reg.connections) = none
            then 0 else 1) = _
        rw [Finmap.lookup_erase_ne (fun heq => hname heq.symm)]
        rfl
      omega
  · exact ⟨h.made, name, hlt⟩

/-- A counter value that is taken ends the faithfulness. -/
theorem short_of_not_fresh (h : Inv s) {a : RegistryAct}
    (hC : ¬ FreshId s a) (hok : s.step a = .ok s') : Short s' := by
  unfold FreshId at hC
  push Not at hC
  obtain ⟨rfl, c, hc, hid⟩ := hC
  cases hok
  refine short_established h.made (List.mem_map.2 ⟨c, hc, ?_⟩)
  exact congrArg s.reg.connName hid

/-- After every sequence of calls the registry is faithful, with every
removal having erased the connection's own entry, exactly when each
connection was established with a counter value that no live connection
of the server had. -/
theorem faithful_iff_fresh (listenAddr : Endpoint) (name : List Char)
    (nextConnId : BitVec 32) (acts : List RegistryAct) :
    (∃ s, run step (create listenAddr name nextConnId) acts = .ok s
        ∧ Faithful s)
      ↔ Along step FreshId (create listenAddr name nextConnId) acts :=
  run_exact (I := Inv) (J := Short)
    (fun _ _ h hC => inv_step h hC)
    (fun _ _ _ h hC hok =>
      ⟨short_of_not_fresh h hC hok, (short_of_not_fresh h hC hok).not_faithful⟩)
    (fun _ _ _ h _ hok => ⟨h.step hok, (h.step hok).not_faithful⟩)
    (fun _ h => h.faithful) (inv_create listenAddr name nextConnId)

-- ====================================================== the counter wraps

/-- The counter after other servers have used it. -/
theorem run_otherServer (n : Nat) (s : RegistryRun) :
    run step s (List.replicate n .otherServer) = .ok { s with
      reg := { s.reg with
        nextConnId := s.reg.nextConnId + BitVec.ofNat 32 n } } := by
  induction n generalizing s with
  | zero =>
      rw [List.replicate_zero]
      simp [run]
  | succ n ih =>
      rw [List.replicate_succ, run_cons_ok _ rfl, ih]
      have hnext : s.reg.nextConnId + 1 + BitVec.ofNat 32 n
          = s.reg.nextConnId + BitVec.ofNat 32 (n + 1) := by
        rw [BitVec.add_assoc, Nat.add_comm n 1, BitVec.ofNat_add]
        rfl
      simp only [hnext]

/-- The connection established when the counter has come round takes the
name of the first one. -/
theorem short_of_wrap (s : RegistryRun) (hlive : s.live = [])
    {n : Nat} (hn : BitVec.ofNat 32 (n + 1) = 0)
    {t : RegistryRun} (hrun : run step s.established
      (List.replicate n .otherServer ++ [.EstablishConnection]) = .ok t) :
    Short t := by
  rw [run_append _ (run_otherServer n s.established)] at hrun
  cases hrun
  have hmade : ∀ c ∈ s.established.live,
      c < s.established.reg.ids.length :=
    made_established (by simp [hlive])
  refine short_established hmade ?_
  have hid : s.established.reg.nextConnId + BitVec.ofNat 32 n
      = s.reg.nextConnId := by
    show s.reg.nextConnId + 1 + BitVec.ofNat 32 n = _
    have hone : (1 : BitVec 32) + BitVec.ofNat 32 n = 0 := by
      rw [← hn, Nat.add_comm n 1, BitVec.ofNat_add]
      rfl
    rw [BitVec.add_assoc, hone]
    exact BitVec.add_zero _
  show s.reg.connName (s.established.reg.nextConnId + BitVec.ofNat 32 n)
    ∈ s.established.names
  rw [hid, names_established (by simp [hlive])]
  exact List.mem_append_right _ (List.mem_singleton_self _)

/-- A connection is established and stays open while another server of the
process establishes `2^32 - 1` connections; the next one gets its name,
and its entry. -/
theorem counter_wraps :
    ¬ ∀ acts, ∃ s, run step (create ⟨0, 8080⟩ "server".toList 0) acts = .ok s
      ∧ Faithful s := by
  intro h
  obtain ⟨s, hrun, hf⟩ := h ([.EstablishConnection]
    ++ (List.replicate (2 ^ 32 - 1) .otherServer ++ [.EstablishConnection]))
  have hfirst : run step (create ⟨0, 8080⟩ "server".toList 0)
      [.EstablishConnection]
        = .ok (create ⟨0, 8080⟩ "server".toList 0).established := rfl
  rw [run_append _ hfirst] at hrun
  exact (short_of_wrap _ rfl (by decide) hrun).not_faithful hf

end RegistryRun

end Cobra
