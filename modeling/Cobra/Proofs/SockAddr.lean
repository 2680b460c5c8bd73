/-
The texts of an `Endpoint`: `toIp` is the address, and `toIpPort` never
shows it.

# What goes wrong

`toIpPort` prints the address into `buf`, and then prints `host` and the
port into the same `buf`. Nobody has written to `host`, so that it still
is `"INVALID"`: the text is the same for all the addresses and says the
port only (`toIpPort_eq`). No dotted text begins with an `'I'`, so it is
never `toIp()` with the port behind it. `toIp` itself and the constructor
that reads its text agree (`endpoint_ofIpPort_toIp`).
-/
import Cobra.Proofs.Convert
import Cobra.SockAddr

namespace Cobra

open Machine Bytes Window Detail Numeral

-- ============================================================= strings

theorem cString_ok {text rest : List UInt8} (h : 0 ∉ text) :
    cString (text ++ 0 :: rest) = .ok text := by
  have hmem : (0 : UInt8) ∈ text ++ 0 :: rest :=
    List.mem_append_right _ List.mem_cons_self
  unfold cString strlen
  rw [require_bind hmem, ok_bind, List.idxOf_append_of_notMem h,
    List.idxOf_cons_self, Nat.add_zero, List.take_left]

theorem cString_of_prefix {text mem : List UInt8} (h : text ++ [0] <+: mem)
    (hzero : 0 ∉ text) : cString mem = .ok text := by
  obtain ⟨rest, rfl⟩ := h
  rw [List.append_assoc]
  exact cString_ok hzero

/-- A text that fits is printed at the start of the array as it is. -/
theorem snprintfTo_front {mem text : List UInt8} {size : Nat}
    (hfit : text.length < size) (hsize : size ≤ mem.length) :
    snprintfTo mem 0 size text
      = .ok (text ++ 0 :: mem.drop (text.length + 1), text.length) := by
  have htake : text.take (size - 1) = text := List.take_of_length_le (by omega)
  have hlen : (text ++ [0]).length = text.length + 1 := List.length_append
  unfold snprintfTo
  rw [htake, put_ok (by omega), ok_bind]
  unfold overlay
  rw [hlen, List.take_zero, List.nil_append, List.append_assoc, Nat.zero_add]
  rfl

-- ======================================================== dotted texts

/-- What is no digit is not in a number. -/
theorem not_mem_formatU {c : UInt8} (hc : decimalDigits.digit c = none)
    (n : Nat) : c ∉ ascii (formatU n) := by
  intro hmem
  unfold formatU at hmem
  rw [ascii_toDigits] at hmem
  have hdigit := Alphabet.isSome_digit_of_readFrom Alphabet.readFrom_numeral
    c hmem
  rw [hc] at hdigit
  cases hdigit

theorem dotted_cons_cons (x y : UInt8) (addr : List UInt8) :
    dotted (x :: y :: addr)
      = ascii (formatU x.toNat) ++ dot :: dotted (y :: addr) := by
  unfold dotted
  rw [List.map_cons, List.map_cons, List.intercalate_cons_cons,
    List.append_assoc]
  rfl

theorem dotted_singleton (x : UInt8) :
    dotted [x] = ascii (formatU x.toNat) := List.intercalate_singleton

/-- There are digits and dots in the text, and nothing else. -/
theorem not_mem_dotted {c : UInt8} (hc : decimalDigits.digit c = none)
    (hdot : c ≠ dot) : ∀ addr : List UInt8, c ∉ dotted addr
  | [] => List.not_mem_nil
  | [x] => by
      rw [dotted_singleton]
      exact not_mem_formatU hc _
  | x :: y :: addr => by
      rw [dotted_cons_cons]
      intro hmem
      rcases List.mem_append.1 hmem with hmem | hmem
      · exact not_mem_formatU hc _ hmem
      rcases List.mem_cons.1 hmem with heq | hmem
      · exact hdot heq
      · exact not_mem_dotted hc hdot (y :: addr) hmem

/-- Three digits for a byte, and a dot. -/
theorem length_dotted : ∀ {addr : List UInt8}, addr ≠ [] →
    (dotted addr).length + 1 ≤ 4 * addr.length
  | [], h => absurd rfl h
  | [x], _ => by
      have hx := length_formatU (k := 3) (by decide)
        (Nat.lt_trans x.toNat_lt (by decide))
      rw [dotted_singleton, length_ascii, List.length_singleton]
      omega
  | x :: y :: addr, _ => by
      have hx := length_formatU (k := 3) (by decide)
        (Nat.lt_trans x.toNat_lt (by decide))
      have hrest := length_dotted (List.cons_ne_nil y addr)
      rw [dotted_cons_cons, List.length_append, List.length_cons,
        length_ascii, List.length_cons]
      omega

/-- The text of an address fits into the array that is meant for it. -/
theorem length_dotted_lt {addr : List UInt8} (h : addr.length = 4) :
    (dotted addr).length < inetAddrstrlen := by
  have hne : addr ≠ [] := List.ne_nil_of_length_pos (by omega)
  have hlen := length_dotted hne
  unfold inetAddrstrlen
  omega

-- =================================================== the two functions

theorem readOctet_formatU (x : UInt8) :
    readOctet (ascii (formatU x.toNat)) = some x := by
  unfold readOctet formatU
  rw [ascii_toDigits, Alphabet.read_numeral]
  show (if _ then _ else _) = _
  rw [if_pos ⟨x.toNat_lt, Alphabet.canonical_numeral⟩, UInt8.ofNat_toNat]

theorem mapM_readOctet (addr : List UInt8) :
    (addr.map fun x => ascii (formatU x.toNat)).mapM readOctet
      = some addr := by
  induction addr with
  | nil => rfl
  | cons x addr ih =>
      rw [List.map_cons, List.mapM_cons, readOctet_formatU, ih]
      rfl

/-- The parts between the dots are the numbers. -/
theorem splitOn_dotted {addr : List UInt8} (h : addr ≠ []) :
    (dotted addr).splitOn dot
      = addr.map fun x => ascii (formatU x.toNat) := by
  refine List.splitOn_intercalate dot ?_ ?_
  · intro part hpart
    obtain ⟨x, -, rfl⟩ := List.mem_map.1 hpart
    exact not_mem_formatU rfl _
  · intro hnil
    exact h (List.map_eq_nil_iff.1 hnil)

theorem posix_pton {src addr : List UInt8}
    (h : ((src.takeWhile (· ≠ 0)).splitOn dot).mapM readOctet = some addr)
    (hlen : addr.length = 4) : Inet.posix.pton src = some addr := by
  simp only [Inet.posix, h, if_pos hlen]

theorem posix_lawful : Inet.posix.Lawful where
  ntop_writes := by
    intro src dst size hsrc hfit hsize
    have hlen : (dotted src ++ [0]).length = (dotted src).length + 1 :=
      List.length_append
    show _ <+: (if _ then _ else _) ∧ (if _ then _ else _ : List UInt8).length = _
    rw [if_pos hfit]
    refine ⟨⟨dst.drop (0 + (dotted src ++ [0]).length), rfl⟩, ?_⟩
    exact length_overlay (by omega)
  pton_reads := by
    intro src rest hsrc
    have hnozero : 0 ∉ dotted src := not_mem_dotted rfl (by decide) src
    have htext : (dotted src ++ 0 :: rest).takeWhile (· ≠ 0) = dotted src := by
      rw [List.takeWhile_append_of_pos]
      · rw [List.takeWhile_cons_of_neg (by decide), List.append_nil]
      · intro c hc
        have hne : c ≠ 0 := fun h => hnozero (h ▸ hc)
        exact decide_eq_true hne
    have hne : src ≠ [] := List.ne_nil_of_length_pos (by omega)
    refine posix_pton ?_ hsrc
    rw [htext, splitOn_dotted hne, mapM_readOctet]

-- ======================================================== the endpoints

namespace SockAddrIn

variable {inet : Inet} {host : ByteOrder}

theorem networkToHost16_hostToNetwork16 (host : ByteOrder) (p : UInt16) :
    networkToHost16 host (hostToNetwork16 host p) = p := by
  have hlt : host.toNetwork 2 p.toNat < 2 ^ 16 :=
    host.toNetwork_lt (k := 2) p.toNat_lt
  unfold networkToHost16 hostToNetwork16
  rw [UInt16.toNat_ofNat', Nat.mod_eq_of_lt hlt,
    host.ofNetwork_toNetwork (k := 2) p.toNat_lt, UInt16.ofNat_toNat]

theorem length_sinAddr (host : ByteOrder) (e : SockAddrIn) :
    (e.sinAddr host).length = 4 := host.length_store 4 _

/-- `toIp` is the text of the address, whatever was in its array. -/
theorem toIp_eq (hinet : inet.Lawful) (buf : Chars 32) (e : SockAddrIn) :
    toIp host inet buf e = .ok (dotted (e.sinAddr host)) := by
  have hfit := length_dotted_lt (length_sinAddr host e)
  obtain ⟨htext, -⟩ := hinet.ntop_writes (length_sinAddr host e)
    (Nat.lt_trans hfit (by decide)) (Nat.le_of_eq buf.property.symm)
  exact cString_of_prefix htext (not_mem_dotted rfl (by decide) _)

/-- The text of the port, which is all that `toIpPort` shows. -/
def invalidText (port : UInt16) : List UInt8 :=
  ascii ("INVALID:".toList ++ formatU port.toNat)

theorem length_formatU_port (port : UInt16) :
    (formatU port.toNat).length ≤ 5 :=
  length_formatU (by decide) (Nat.lt_trans port.toNat_lt (by decide))

/-- The text fits into the array. -/
theorem length_invalidText_lt (port : UInt16) :
    (invalidText port).length < 32 := by
  have hport := length_formatU_port port
  have hword : "INVALID:".toList.length = 8 := by decide
  unfold invalidText
  rw [length_ascii, List.length_append]
  omega

theorem zero_not_mem_invalidText (port : UInt16) : 0 ∉ invalidText port := by
  intro hmem
  unfold invalidText ascii at hmem
  rw [List.map_append] at hmem
  rcases List.mem_append.1 hmem with hmem | hmem
  · revert hmem
    decide
  · exact not_mem_formatU rfl _ hmem

theorem cString_hostArray :
    cString hostArray.val = .ok (ascii "INVALID".toList) := by decide

/-- `toIpPort` is the word in `host` and the port, whatever the address
is. -/
theorem toIpPort_eq (hinet : inet.Lawful) (buf : Chars 32) (e : SockAddrIn) :
    toIpPort host inet buf e = .ok (invalidText (e.port host)) := by
  have hsize : inetAddrstrlen ≤ buf.val.length := by
    rw [buf.property]
    decide
  obtain ⟨-, hlen⟩ := hinet.ntop_writes (length_sinAddr host e)
    (length_dotted_lt (length_sinAddr host e)) hsize
  rw [buf.property] at hlen
  have htext : ascii "INVALID".toList
      ++ ascii (':' :: formatU (networkToHost16 host e.sin_port).toNat)
        = invalidText (e.port host) := List.map_append.symm
  unfold toIpPort
  rw [cString_hostArray, ok_bind]
  show (snprintfTo _ 0 32 (_ ++ _) >>= _) = _
  rw [htext, snprintfTo_front (length_invalidText_lt _)
    (Nat.le_of_eq hlen.symm), ok_bind]
  exact cString_ok (zero_not_mem_invalidText _)

/-- The rest of the development calls this `Endpoint.toIpPort`. -/
theorem toIpPort_endpoint (hinet : inet.Lawful) (buf : Chars 32)
    (e : SockAddrIn) :
    toIpPort host inet buf e = .ok (ascii (e.endpoint host).toIpPort) := by
  have hport := length_formatU_port (e.port host)
  rw [toIpPort_eq hinet]
  unfold Endpoint.toIpPort snprintf
  rw [List.take_of_length_le]
  · rfl
  · show (_ ++ formatU (e.port host).toNat).length ≤ 31
    rw [List.length_append]
    have hword : ("INVALID".toList ++ [':']).length = 8 := by decide
    omega

theorem invalidText_injective {p q : UInt16}
    (h : invalidText p = invalidText q) : p = q := by
  unfold invalidText ascii at h
  rw [List.map_append, List.map_append] at h
  have hdigits : ascii (formatU p.toNat) = ascii (formatU q.toNat) :=
    List.append_cancel_left h
  unfold formatU at hdigits
  rw [ascii_toDigits, ascii_toDigits] at hdigits
  have hread := congrArg decimalDigits.read hdigits
  rw [Alphabet.read_numeral, Alphabet.read_numeral] at hread
  exact UInt16.toNat_inj.1 (Option.some.inj hread)

/-- The port that a constructor is given is the port of the endpoint. -/
theorem port_ofPort (p : UInt16) : (ofPort host p).port host = p :=
  networkToHost16_hostToNetwork16 host p

/-- The `hostport_` of a server has the port that it listens on. -/
theorem toIpPort_ofPort (hinet : inet.Lawful) (buf : Chars 32) (p : UInt16) :
    toIpPort host inet buf (ofPort host p) = .ok (invalidText p) := by
  rw [toIpPort_eq hinet, port_ofPort]

theorem port_ofIpPort (ip : StringPiece) (p : UInt16) :
    (ofIpPort host inet ip p).port host = p := by
  unfold ofIpPort port
  split
  · exact networkToHost16_hostToNetwork16 host p
  · exact networkToHost16_hostToNetwork16 host p

/-- The endpoint made of the text of an address and of a port is the one
with this address and this port. -/
theorem endpoint_ofIpPort_toIp (hinet : inet.Lawful) (e : SockAddrIn) :
    (ofIpPort host inet (.ofStringData (dotted (e.sinAddr host)))
      (e.port host)).endpoint host = e.endpoint host := by
  have hpton : inet.pton
      (StringPiece.ofStringData (dotted (e.sinAddr host))).data
        = some (e.sinAddr host) := hinet.pton_reads [] (length_sinAddr host e)
  have haddr : (ofIpPort host inet
      (.ofStringData (dotted (e.sinAddr host))) (e.port host)).s_addr
        = e.s_addr := by
    unfold ofIpPort
    rw [hpton]
    show UInt32.ofNat (host.load (host.store 4 e.s_addr.toNat)) = _
    rw [host.load_store (k := 4) e.s_addr.toNat_lt, UInt32.ofNat_toNat]
  unfold endpoint
  rw [haddr, port_ofIpPort]

/-- No dotted text begins with an `'I'`. -/
theorem invalidText_ne (p : UInt16) (addr : List UInt8) :
    invalidText p ≠ dotted addr ++ ascii (':' :: formatU p.toNat) := by
  intro h
  have hnotI : (73 : UInt8) ∉ dotted addr := not_mem_dotted rfl (by decide) addr
  cases hip : dotted addr with
  | nil =>
      rw [hip] at h
      exact absurd (List.cons.inj h).1 (by decide)
  | cons c rest =>
      rw [hip] at h hnotI
      have hc : (73 : UInt8) = c := (List.cons.inj h).1
      exact hnotI (hc ▸ List.mem_cons_self)

/-- For no endpoint is `toIpPort()` what `toIp()`, a colon and the port
make. It shows the port and nothing else, so that another address has the
same text. The endpoint that is made of `toIp()` and the port is the same
one. -/
theorem toIpPort_never_agrees {inet : Inet} (hinet : inet.Lawful)
    (host : ByteOrder) (buf buf' : Chars 32) (e : SockAddrIn) :
    ∃ ip text, toIp host inet buf e = .ok ip
      ∧ toIpPort host inet buf' e = .ok text
      ∧ text ≠ ip ++ ascii (':' :: formatU (e.port host).toNat)
      ∧ (∀ e', toIpPort host inet buf' e' = .ok text
        ↔ e'.port host = e.port host)
      ∧ (∃ e', e'.endpoint host ≠ e.endpoint host
        ∧ toIpPort host inet buf' e' = .ok text)
      ∧ (ofIpPort host inet (.ofStringData ip) (e.port host)).endpoint host
        = e.endpoint host := by
  refine ⟨_, _, toIp_eq hinet buf e, toIpPort_eq hinet buf' e,
    invalidText_ne _ _, fun e' => ?_, ?_, endpoint_ofIpPort_toIp hinet e⟩
  · rw [toIpPort_eq hinet]
    constructor
    · intro h
      exact invalidText_injective (Except.ok.inj h)
    · intro h
      rw [h]
  · refine ⟨{ e with s_addr := e.s_addr + 1 }, fun h => ?_,
      toIpPort_eq hinet buf' _⟩
    have haddr : e.s_addr + 1 = e.s_addr :=
      UInt32.toBitVec_inj.1 (congrArg Endpoint.addr h)
    have hnat := congrArg UInt32.toNat haddr
    have hone : (1 : UInt32).toNat = 1 := rfl
    have hlt := e.s_addr.toNat_lt
    rw [UInt32.toNat_add] at hnat
    omega

/-- An array that was zeroed. -/
def zeroed : Chars 32 := ⟨List.replicate 32 0, by decide⟩

/-- `127.0.0.1:80` and `10.0.0.1:80`, in the memory of a machine with the
lowest byte first. -/
def loopback : SockAddrIn := ⟨afInet, 0x5000, 0x0100007f⟩

def privateNet : SockAddrIn := ⟨afInet, 0x5000, 0x0100000a⟩

theorem toIpPort_never_agrees_loopback :
    ∃ ip text, toIp .little .posix zeroed loopback = .ok ip
      ∧ toIpPort .little .posix zeroed loopback = .ok text
      ∧ text ≠ ip ++ ascii (':' :: formatU 80) := by
  obtain ⟨ip, text, hip, htext, hne, -⟩ :=
    toIpPort_never_agrees posix_lawful .little zeroed zeroed loopback
  exact ⟨ip, text, hip, htext, hne⟩

/-- The address is gone from the text, and two endpoints have the same. -/
theorem toIpPort_shows_invalid :
    toIp .little .posix zeroed loopback = .ok (ascii "127.0.0.1".toList)
      ∧ toIpPort .little .posix zeroed loopback
        = .ok (ascii "INVALID:80".toList)
      ∧ ascii "INVALID:80".toList
        ≠ ascii "127.0.0.1".toList ++ ascii (':' :: formatU 80)
      ∧ loopback.endpoint .little ≠ privateNet.endpoint .little
      ∧ toIpPort .little .posix zeroed privateNet
        = toIpPort .little .posix zeroed loopback := by decide +kernel

end SockAddrIn

end Cobra
