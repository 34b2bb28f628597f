import PhxSql.Proxy.InetText

/-!
# The PROXY protocol

A proxy that passes a connection on to the proxy of another node first sends the addresses of its
client, and the other takes them in place of those of the connection. `ProxyProtocolHandler` writes
them as a line of text (version 1) or as a packed header (version 2). The receiver peeks at the
first 108 bytes of the connection, finds out which version it has, and reads exactly the header off
the connection: what follows belongs to the client.

The address texts of `inet_ntop` and `inet_pton` are a parameter. `headers_round_trip` says that
both versions give back what was sent, whatever follows.
-/

set_option autoImplicit false

namespace PhxSql.Proxy

open PhxSql.Proto PhxSql.Lib

/-! ## Socket addresses -/

def htons (n : Nat) : Block 2 :=
  ⟨beBytes 2 n, length_beBytes 2 n⟩

def ntohs (port : Block 2) : Nat :=
  beValue port.toList

def afInet : Nat := 2

def afInet6 : Nat := 10

/-- The part of `struct sockaddr_storage` that a `sockaddr_in` or a `sockaddr_in6` uses. The two
share their bytes; ports are in network byte order. -/
structure SockAddr where
  family : Nat
  port : Block 2
  /-- `sin_addr`, and `sin6_flowinfo` of the other. -/
  sinAddr : Block 4
  /-- `sin6_addr`, whose first eight bytes are `sin_zero` of the other. -/
  sin6Addr : Block 16
  sin6ScopeId : Block 4
  deriving DecidableEq

/-- `src_addr_` and `dst_addr_` of the handler. -/
structure ProxyAddrs where
  src : SockAddr
  dst : SockAddr
  deriving DecidableEq

/-- The same family, address and port. -/
def SameEndpoint (a b : SockAddr) : Prop :=
  a.family = b.family ∧ a.port = b.port ∧ (a.family = afInet → a.sinAddr = b.sinAddr) ∧
    (a.family = afInet6 → a.sin6Addr = b.sin6Addr)

/-! ## Addresses from texts -/

/-- The texts that `SetAddr` and `SetAddr6` take for the address of zeros: nothing, `0`, `*` and
its own text. -/
def isAnyText (anyText ip : Bytes) : Prop :=
  ip = [] ∨ ip = [48] ∨ ip = anyText ∨ ip = [42]

instance (anyText ip : Bytes) : Decidable (isAnyText anyText ip) :=
  inferInstanceAs (Decidable (_ ∨ _))

/-- The address that `SetAddr` and `SetAddr6` store. -/
def readAddr {n bound : Nat} {anyText : Bytes} {mark : UInt8} (text : AddrText n bound anyText mark)
    (ip : Bytes) : Option (Block n) :=
  if isAnyText anyText ip then some (zeros n) else text.pton ip

/-- `SetAddr`, and whether it succeeds. The structure is cleared first. -/
def setAddr (inet : Inet) (ip : Bytes) (port : Nat) (addr : SockAddr) : Bool × SockAddr :=
  let cleared : SockAddr :=
    { addr with
      family := afInet
      port := htons port
      sinAddr := zeros 4
      -- `bzero` of a `sockaddr_in` reaches 16 bytes, up to the middle of `sin6_addr`.
      sin6Addr := ⟨List.replicate 8 0 ++ addr.sin6Addr.toList.drop 8, by simp⟩ }
  match readAddr inet.v4 ip with
  | some a => (true, { cleared with sinAddr := a })
  | none => (false, cleared)

/-- `SetAddr6`. -/
def setAddr6 (inet : Inet) (ip : Bytes) (port : Nat) (_addr : SockAddr) : Bool × SockAddr :=
  let cleared : SockAddr :=
    { family := afInet6
      port := htons port
      sinAddr := zeros 4
      sin6Addr := zeros 16
      sin6ScopeId := zeros 4 }
  match readAddr inet.v6 ip with
  | some a => (true, { cleared with sin6Addr := a })
  | none => (false, cleared)

/-- `SockAddrToIPPort`. `inet_ntop` fails for a text that does not fit into `INET_ADDRSTRLEN` or
`INET6_ADDRSTRLEN` bytes with the zero byte at its end. -/
def sockAddrToIPPort (inet : Inet) (addr : SockAddr) : Option (Bytes × Nat) :=
  if addr.family = afInet then
    if (inet.v4.ntop addr.sinAddr).length < 16 then
      some (inet.v4.ntop addr.sinAddr, ntohs addr.port)
    else none
  else if addr.family = afInet6 then
    if (inet.v6.ntop addr.sin6Addr).length < 46 then
      some (inet.v6.ntop addr.sin6Addr, ntohs addr.port)
    else none
  else none

/-! ## Writing headers -/

/-- `PROXY` and a space. -/
def proxyWord : Bytes := [80, 82, 79, 88, 89, 32]

def tcp4 : Bytes := [84, 67, 80, 52]

def tcp6 : Bytes := [84, 67, 80, 54]

def unknown : Bytes := [85, 78, 75, 78, 79, 87, 78]

def crlf : Bytes := [cr, lf]

/-- `UIntToStr`. -/
def uintToStr (i : Nat) : Bytes :=
  decimal i

/-- The line after its protocol word: addresses and ports, as `MakeProxyHeaderV1` appends them. -/
def addressText (srcIp dstIp srcPort dstPort : Bytes) : Bytes :=
  srcIp ++ spaceByte :: (dstIp ++ spaceByte :: (srcPort ++ spaceByte :: (dstPort ++ crlf)))

/-- `MakeProxyHeaderV1` after the protocol word. -/
def appendAddrs (inet : Inet) (addrs : ProxyAddrs) (header : Bytes) : Int × Bytes :=
  match sockAddrToIPPort inet addrs.src with
  | none => (-307, header)
  | some (srcIp, srcPort) =>
    match sockAddrToIPPort inet addrs.dst with
    | none => (-310, header)
    | some (dstIp, dstPort) =>
      (0, header ++ addressText srcIp dstIp (uintToStr srcPort) (uintToStr dstPort))

/-- `MakeProxyHeaderV1`: what it returns, and the header. -/
def makeProxyHeaderV1 (inet : Inet) (addrs : ProxyAddrs) : Int × Bytes :=
  if addrs.src.family = afInet ∧ addrs.dst.family = afInet then
    appendAddrs inet addrs (proxyWord ++ (tcp4 ++ [spaceByte]))
  else if addrs.src.family = afInet6 ∧ addrs.dst.family = afInet6 then
    appendAddrs inet addrs (proxyWord ++ (tcp6 ++ [spaceByte]))
  else (0, proxyWord ++ (unknown ++ crlf))

def pp2Signature : Bytes := [13, 10, 13, 10, 0, 13, 10, 81, 85, 73, 84, 10]

def pp2Version : UInt8 := 0x20

def pp2CmdLocal : UInt8 := 0x00

def pp2CmdProxy : UInt8 := 0x01

def pp2FamUnspec : UInt8 := 0x00

def pp2FamTcp4 : UInt8 := 0x11

def pp2FamTcp6 : UInt8 := 0x21

/-- The bytes of a `ProxyHdr` with an address block. -/
def proxyHdr (fam : UInt8) (block : Bytes) : Bytes :=
  pp2Signature ++ ([pp2Version ||| pp2CmdProxy, fam] ++ ((htons block.length).toList ++ block))

/-- The addresses of a `ProxyHdr`, in the order of its packed fields. -/
def addressBlock {n : Nat} (srcAddr dstAddr : Block n) (srcPort dstPort : Block 2) : Bytes :=
  srcAddr.toList ++ (dstAddr.toList ++ (srcPort.toList ++ dstPort.toList))

/-- `MakeProxyHeaderV2`. -/
def makeProxyHeaderV2 (addrs : ProxyAddrs) : Int × Bytes :=
  if addrs.src.family = afInet ∧ addrs.dst.family = afInet then
    (0, proxyHdr pp2FamTcp4
      (addressBlock addrs.src.sinAddr addrs.dst.sinAddr addrs.src.port addrs.dst.port))
  else if addrs.src.family = afInet6 ∧ addrs.dst.family = afInet6 then
    (0, proxyHdr pp2FamTcp6
      (addressBlock addrs.src.sin6Addr addrs.dst.sin6Addr addrs.src.port addrs.dst.port))
  else (0, proxyHdr pp2FamUnspec [])

/-! ## Reading headers -/

/-- `SplitStr` with a space as the delimiter. -/
def splitStr (str : Bytes) : List Bytes :=
  tokens spaceByte str

/-- What `c_str` shows of a string: it ends at the first zero byte. -/
def cStr (str : Bytes) : Bytes :=
  str.takeWhile fun b => b ≠ 0

/-- `atoi`: the `int` that `strtol` gives, cut to 32 bits. -/
def atoi (str : Bytes) : Int :=
  (scanSigned 64 str).bmod (2 ^ 32)

/-- Both addresses set by `SetAddr` or by `SetAddr6`, with the line numbers of the two errors. -/
def setAddrs (set : Bytes → Nat → SockAddr → Bool × SockAddr) (srcLine dstLine : Int)
    (srcIp dstIp : Bytes) (srcPort dstPort : Nat) (size : Int) (addrs : ProxyAddrs) :
    Int × ProxyAddrs :=
  let src := set srcIp srcPort addrs.src
  let dst := set dstIp dstPort addrs.dst
  if ¬src.1 then (-srcLine, ⟨src.2, addrs.dst⟩)
  else if ¬dst.1 then (-dstLine, ⟨src.2, dst.2⟩)
  else (size, ⟨src.2, dst.2⟩)

/-- `ParseProxyHeaderV1` on a line with six tokens. -/
def parseAddrs (inet : Inet) (proto srcIp dstIp : Bytes) (srcPort dstPort size : Int)
    (addrs : ProxyAddrs) : Int × ProxyAddrs :=
  if srcPort < 0 ∨ srcPort > 65535 ∨ dstPort < 0 ∨ dstPort > 65535 then (-205, addrs)
  else if proto = tcp4 then
    setAddrs (setAddr inet) 210 213 srcIp dstIp srcPort.toNat dstPort.toNat size addrs
  else if proto = tcp6 then
    setAddrs (setAddr6 inet) 217 220 srcIp dstIp srcPort.toNat dstPort.toNat size addrs
  -- Another word is no error: the header is skipped and the addresses stay.
  else (size, addrs)

/-- `ParseProxyHeaderV1` on the tokens of the line: `none` if `tokens[1]` does not exist. -/
def parseTokens (inet : Inet) (tokens : List Bytes) (size : Int) (addrs : ProxyAddrs) :
    Option (Int × ProxyAddrs) :=
  match tokens[1]? with
  | none => none
  | some proto =>
    -- What follows `UNKNOWN` is not looked at.
    if proto = unknown then some (size, addrs)
    else
      match tokens with
      | [_, _, srcIp, dstIp, srcPort, dstPort] =>
        some (parseAddrs inet proto (cStr srcIp) (cStr dstIp) (atoi (cStr srcPort))
          (atoi (cStr dstPort)) size addrs)
      | _ => some (-197, addrs)

/-- The bytes before the first carriage return, which `memchr` looks for in all but the last of the
bytes. -/
def lineOf (hdr : Bytes) (readSize : Nat) : Bytes :=
  (hdr.take (readSize - 1)).takeWhile fun b => b ≠ cr

/-- There is a carriage return, and a line feed after it. -/
def hasLine (hdr : Bytes) (readSize : Nat) : Prop :=
  cr ∈ hdr.take (readSize - 1) ∧ hdr.getD ((lineOf hdr readSize).length + 1) 0 = lf

instance (hdr : Bytes) (readSize : Nat) : Decidable (hasLine hdr readSize) :=
  inferInstanceAs (Decidable (_ ∧ _))

/-- `ParseProxyHeaderV1`: what it returns, and the addresses after it. -/
def parseProxyHeaderV1 (inet : Inet) (hdr : Bytes) (readSize : Nat) (addrs : ProxyAddrs) :
    Option (Int × ProxyAddrs) :=
  let line := lineOf hdr readSize
  if ¬hasLine hdr readSize then some (-189, addrs)
  else parseTokens inet (splitStr line) (line.length + 2) addrs

def verCmd (hdr : Bytes) : UInt8 := hdr.getD 12 0

def fam (hdr : Bytes) : UInt8 := hdr.getD 13 0

/-- `ntohs(hdr.len)`. -/
def hdrLen (hdr : Bytes) : Nat := ntohs (readBlock 2 hdr 14)

/-- `ParseProxyHeaderV2` for the command `PROXY`: the switch over the family. -/
def takeAddrs (hdr : Bytes) (size : Int) (addrs : ProxyAddrs) : Int × ProxyAddrs :=
  -- The addresses are read at their places in the union, whether or not `hdr.len` covers them.
  if fam hdr = pp2FamTcp4 then
    (size,
      ⟨{ addrs.src with family := afInet, sinAddr := readBlock 4 hdr 16, port := readBlock 2 hdr 24 },
        { addrs.dst with
          family := afInet, sinAddr := readBlock 4 hdr 20, port := readBlock 2 hdr 26 }⟩)
  else if fam hdr = pp2FamTcp6 then
    (size,
      ⟨{ addrs.src with
          family := afInet6, sin6Addr := readBlock 16 hdr 16, port := readBlock 2 hdr 48 },
        { addrs.dst with
          family := afInet6, sin6Addr := readBlock 16 hdr 32, port := readBlock 2 hdr 50 }⟩)
  else if fam hdr = pp2FamUnspec then (size, addrs)
  else (-254, addrs)

/-- `ParseProxyHeaderV2`. -/
def parseProxyHeaderV2 (hdr : Bytes) (readSize : Nat) (addrs : ProxyAddrs) : Int × ProxyAddrs :=
  let size := 16 + hdrLen hdr
  if readSize < size then (-230, addrs)
  else if verCmd hdr &&& 0xF = pp2CmdProxy then takeAddrs hdr size addrs
  else if verCmd hdr &&& 0xF = pp2CmdLocal then (size, addrs)
  else (-259, addrs)

/-- The bytes look like a header of version 2. -/
def isV2 (hdr : Bytes) (hdrSize : Nat) : Prop :=
  16 ≤ hdrSize ∧ hdr.take 12 = pp2Signature ∧ verCmd hdr &&& 0xF0 = pp2Version

instance (hdr : Bytes) (hdrSize : Nat) : Decidable (isV2 hdr hdrSize) :=
  inferInstanceAs (Decidable (_ ∧ _))

/-- The bytes look like a header of version 1. -/
def isV1 (hdr : Bytes) (hdrSize : Nat) : Prop :=
  8 ≤ hdrSize ∧ hdr.take 6 = proxyWord

instance (hdr : Bytes) (hdrSize : Nat) : Decidable (isV1 hdr hdrSize) :=
  inferInstanceAs (Decidable (_ ∧ _))

/-- The version dispatch of `ProcessProxyHeader` on the buffer `hdr`, of which `hdrSize` bytes were
peeked at; `none` if a missing token is read. -/
def parseProxyHeader (inet : Inet) (hdr : Bytes) (hdrSize : Nat) (addrs : ProxyAddrs) :
    Option (Int × ProxyAddrs) :=
  if isV2 hdr hdrSize then some (parseProxyHeaderV2 hdr hdrSize addrs)
  else if isV1 hdr hdrSize then parseProxyHeaderV1 inet hdr hdrSize addrs
  else some (-171, addrs)

/-! ## Addresses and ports -/

theorem htons_ntohs (port : Block 2) : htons (ntohs port) = port :=
  List.Vector.eq _ _ (beBytes_beValue port.2)

theorem ntohs_htons {n : Nat} (h : n < 65536) : ntohs (htons n) = n :=
  beValue_beBytes_of_lt h

theorem ntohs_lt (port : Block 2) : ntohs port < 65536 :=
  beValue_lt port.2

section AddrText

variable {n bound : Nat} {anyText : Bytes} {mark : UInt8} (text : AddrText n bound anyText mark)

theorem mark_mem_ntop (a : Block n) : mark ∈ text.ntop a :=
  text.mark_mem _ a (text.pton_ntop a)

/-- The text of an address is read as that address, though some texts are not given to
`inet_pton`. -/
theorem readAddr_ntop (h0 : mark ≠ 48) (hstar : mark ≠ 42) (a : Block n) :
    readAddr text (text.ntop a) = some a := by
  have hmark := mark_mem_ntop text a
  unfold readAddr
  split
  · rename_i hany
    rcases hany with hnil | hzero | hany | hstar'
    · rw [hnil] at hmark
      exact absurd hmark List.not_mem_nil
    · rw [hzero] at hmark
      exact absurd (List.mem_singleton.mp hmark) h0
    · -- The text of the address of zeros belongs to no other address.
      have htext : text.ntop a = text.ntop (zeros n) := hany.trans text.ntop_any.symm
      rw [← text.pton_ntop a, htext, text.pton_ntop]
    · rw [hstar'] at hmark
      exact absurd (List.mem_singleton.mp hmark) hstar
  · exact text.pton_ntop a

theorem cStr_ntop (a : Block n) : cStr (text.ntop a) = text.ntop a := by
  refine List.takeWhile_eq_self_iff.mpr fun b hb => ?_
  exact decide_eq_true (text.ntop_plain a b hb).1

theorem not_mem_ntop (a : Block n) : spaceByte ∉ text.ntop a ∧ cr ∉ text.ntop a :=
  ⟨fun h => (text.ntop_plain a _ h).2.1 rfl, fun h => (text.ntop_plain a _ h).2.2 rfl⟩

end AddrText

theorem afInet_ne_afInet6 : afInet ≠ afInet6 := by
  decide

/-- `SetAddr` on the text and the port of an address. -/
theorem setAddr_ntop (inet : Inet) {a : SockAddr} (h : a.family = afInet) (old : SockAddr) :
    (setAddr inet (inet.v4.ntop a.sinAddr) (ntohs a.port) old).1 = true ∧
      SameEndpoint (setAddr inet (inet.v4.ntop a.sinAddr) (ntohs a.port) old).2 a := by
  simp only [setAddr, readAddr_ntop inet.v4 (by decide) (by decide), htons_ntohs]
  exact ⟨trivial, h.symm, rfl, fun _ => rfl, fun h6 => absurd h6 afInet_ne_afInet6⟩

theorem setAddr6_ntop (inet : Inet) {a : SockAddr} (h : a.family = afInet6) (old : SockAddr) :
    (setAddr6 inet (inet.v6.ntop a.sin6Addr) (ntohs a.port) old).1 = true ∧
      SameEndpoint (setAddr6 inet (inet.v6.ntop a.sin6Addr) (ntohs a.port) old).2 a := by
  simp only [setAddr6, readAddr_ntop inet.v6 (by decide) (by decide), htons_ntohs]
  exact ⟨trivial, h.symm, rfl, fun h4 => absurd h4.symm afInet_ne_afInet6, fun _ => rfl⟩

theorem sockAddrToIPPort_inet (inet : Inet) {a : SockAddr} (h : a.family = afInet) :
    sockAddrToIPPort inet a = some (inet.v4.ntop a.sinAddr, ntohs a.port) := by
  have hlen := inet.v4.length_ntop a.sinAddr
  rw [sockAddrToIPPort, if_pos h, if_pos (by omega)]

theorem sockAddrToIPPort_inet6 (inet : Inet) {a : SockAddr} (h : a.family = afInet6) :
    sockAddrToIPPort inet a = some (inet.v6.ntop a.sin6Addr, ntohs a.port) := by
  have hlen := inet.v6.length_ntop a.sin6Addr
  rw [sockAddrToIPPort, if_neg (h ▸ afInet_ne_afInet6.symm), if_pos h, if_pos (by omega)]

theorem cStr_decimal (n : Nat) : cStr (decimal n) = decimal n := by
  refine List.takeWhile_eq_self_iff.mpr fun b hb => decide_eq_true ?_
  rintro rfl
  exact not_mem_decimal rfl n hb

theorem atoi_decimal {n : Nat} (h : n < 65536) : atoi (decimal n) = n := by
  have hvalue := digitsValue_decimal n
  rw [atoi, scanSigned_digits (decimal_ne_nil n) (fun _ => isDigit_of_mem_decimal) (by omega), hvalue]
  exact Int.bmod_eq_of_le (by omega) (by omega)

/-! ## Lines -/

/-- The line that `lineOf` finds at the head of the buffer. -/
theorem lineOf_append {line : Bytes} (hcr : cr ∉ line) (rest : Bytes) {readSize : Nat}
    (hsize : line.length + 2 ≤ readSize) :
    lineOf (line ++ (crlf ++ rest)) readSize = line ∧
      hasLine (line ++ (crlf ++ rest)) readSize := by
  have htake : (line ++ (crlf ++ rest)).take (readSize - 1) =
      line ++ cr :: (lf :: rest).take (readSize - 1 - line.length - 1) := by
    rw [List.take_append, List.take_of_length_le (by omega), crlf, List.cons_append,
      List.singleton_append]
    congr 1
    rw [List.take_cons (by omega)]
  have hall : ∀ b ∈ line, decide (b ≠ cr) = true := by
    intro b hb
    refine decide_eq_true ?_
    rintro rfl
    exact hcr hb
  have hline : lineOf (line ++ (crlf ++ rest)) readSize = line := by
    rw [lineOf, htake, List.takeWhile_append_of_pos hall, List.takeWhile_cons_of_neg (by simp),
      List.append_nil]
  refine ⟨hline, ?_, ?_⟩
  · rw [htake]
    exact List.mem_append_right _ List.mem_cons_self
  · rw [hline, List.getD_eq_getElem?_getD, List.getElem?_append_right (Nat.le_add_right _ 1),
      Nat.add_sub_cancel_left]
    rfl

/-- The tokens of a line with a protocol word, two addresses and two ports. -/
theorem splitStr_line {proto srcIp dstIp srcPort dstPort : Bytes} (hproto : spaceByte ∉ proto)
    (hsrc : spaceByte ∉ srcIp) (hdst : spaceByte ∉ dstIp) (hsrcPort : spaceByte ∉ srcPort)
    (hdstPort : spaceByte ∉ dstPort) (hne : dstPort ≠ []) :
    splitStr (proxyWord ++ (proto ++ spaceByte :: (srcIp ++ spaceByte :: (dstIp ++
        spaceByte :: (srcPort ++ spaceByte :: dstPort))))) =
      [proxyWord.dropLast, proto, srcIp, dstIp, srcPort, dstPort] := by
  have hword : proxyWord = proxyWord.dropLast ++ [spaceByte] := rfl
  rw [splitStr, hword, List.append_assoc, List.singleton_append, tokens_append_cons (by decide),
    tokens_append_cons hproto, tokens_append_cons hsrc, tokens_append_cons hdst,
    tokens_append_cons hsrcPort, tokens_of_not_mem hdstPort hne]
  rfl

/-! ## Headers of version 1 -/

/-- The signature of version 2 does not begin with a `P`. -/
theorem take_line_ne_signature (text : Bytes) : (proxyWord ++ text).take 12 ≠ pp2Signature := by
  intro hsig
  have hhead := congrArg List.head? hsig
  rw [List.head?_take] at hhead
  cases hhead

/-- A line at the head of the buffer is parsed as a header of version 1. -/
theorem parseProxyHeader_line (inet : Inet) {text : Bytes} (hcr : cr ∉ text) (rest : Bytes)
    {hdrSize : Nat} (hsize : (proxyWord ++ text).length + 2 ≤ hdrSize) (addrs : ProxyAddrs) :
    parseProxyHeader inet (proxyWord ++ text ++ (crlf ++ rest)) hdrSize addrs =
      parseTokens inet (splitStr (proxyWord ++ text)) ((proxyWord ++ text).length + 2) addrs := by
  have hv2 : ¬isV2 (proxyWord ++ text ++ (crlf ++ rest)) hdrSize := by
    rintro ⟨-, hsig, -⟩
    rw [List.append_assoc] at hsig
    exact take_line_ne_signature _ hsig
  have hlen : (proxyWord ++ text).length = 6 + text.length := List.length_append
  have hv1 : isV1 (proxyWord ++ text ++ (crlf ++ rest)) hdrSize := by
    refine ⟨by omega, ?_⟩
    rw [List.append_assoc]
    exact List.take_left' rfl
  have hcr' : cr ∉ proxyWord ++ text := by
    rw [List.mem_append, not_or]
    exact ⟨by decide, hcr⟩
  obtain ⟨hline, hhas⟩ := lineOf_append hcr' rest hsize
  rw [parseProxyHeader, if_neg hv2, if_pos hv1, parseProxyHeaderV1, hline, if_neg (not_not.mpr hhas)]

/-- A text that can stand between two spaces of a line and is not cut by `c_str`. -/
def PlainText (text : Bytes) : Prop :=
  spaceByte ∉ text ∧ cr ∉ text ∧ cStr text = text

theorem plainText_ntop {n bound : Nat} {anyText : Bytes} {mark : UInt8}
    (text : AddrText n bound anyText mark) (a : Block n) : PlainText (text.ntop a) :=
  ⟨(not_mem_ntop text a).1, (not_mem_ntop text a).2, cStr_ntop text a⟩

theorem plainText_decimal (n : Nat) : PlainText (decimal n) :=
  ⟨not_mem_decimal rfl n, not_mem_decimal rfl n, cStr_decimal n⟩

theorem addressText_eq (srcIp dstIp srcPort dstPort : Bytes) :
    addressText srcIp dstIp srcPort dstPort =
      srcIp ++ spaceByte :: (dstIp ++ spaceByte :: (srcPort ++ spaceByte :: dstPort)) ++ crlf := by
  simp only [addressText, List.append_assoc, List.cons_append]

/-- A line with addresses and ports at the head of the buffer. -/
theorem parseProxyHeader_addressText (inet : Inet) {proto srcIp dstIp : Bytes} {srcPort dstPort : Nat}
    (hproto : spaceByte ∉ proto ∧ cr ∉ proto ∧ proto ≠ unknown) (hsrc : PlainText srcIp)
    (hdst : PlainText dstIp) (hsrcPort : srcPort < 65536) (hdstPort : dstPort < 65536)
    {header : Bytes}
    (hheader : header = proxyWord ++ (proto ++ [spaceByte]) ++
      addressText srcIp dstIp (uintToStr srcPort) (uintToStr dstPort))
    (rest : Bytes) {hdrSize : Nat} (hsize : header.length ≤ hdrSize) (addrs : ProxyAddrs) :
    parseProxyHeader inet (header ++ rest) hdrSize addrs =
      some (parseAddrs inet proto srcIp dstIp srcPort dstPort header.length addrs) := by
  obtain ⟨hsrcSpace, hsrcCr, hsrcStr⟩ := hsrc
  obtain ⟨hdstSpace, hdstCr, hdstStr⟩ := hdst
  obtain ⟨hpSpace, hpCr, hpStr⟩ := plainText_decimal srcPort
  obtain ⟨hqSpace, hqCr, hqStr⟩ := plainText_decimal dstPort
  have hsplit := splitStr_line hproto.1 hsrcSpace hdstSpace hpSpace hqSpace (decimal_ne_nil dstPort)
  generalize htext : proto ++ spaceByte :: (srcIp ++ spaceByte :: (dstIp ++ spaceByte ::
    (decimal srcPort ++ spaceByte :: decimal dstPort))) = text at hsplit
  have hcrSpace : cr ≠ spaceByte := by decide
  have hcr : cr ∉ text := by
    simp only [← htext, List.mem_append, List.mem_cons, not_or]
    exact ⟨hproto.2.1, hcrSpace, hsrcCr, hcrSpace, hdstCr, hcrSpace, hpCr, hcrSpace, hqCr⟩
  have hline : header = proxyWord ++ text ++ crlf := by
    rw [hheader, addressText_eq, ← htext, uintToStr, uintToStr]
    simp only [List.append_assoc, List.cons_append, List.nil_append]
  have hlen : header.length = (proxyWord ++ text).length + 2 := by
    rw [hline, List.length_append]
    rfl
  rw [hline, List.append_assoc, parseProxyHeader_line inet hcr rest (by omega), hsplit, ← hline, hlen]
  simp only [parseTokens, List.getElem?_cons_succ, List.getElem?_cons_zero, if_neg hproto.2.2, hsrcStr,
    hdstStr, hpStr, hqStr, atoi_decimal hsrcPort, atoi_decimal hdstPort, Nat.cast_add, Nat.cast_ofNat]

/-- Both addresses are set if both texts can be read. -/
theorem setAddrs_of_ok {set : Bytes → Nat → SockAddr → Bool × SockAddr} {srcIp dstIp : Bytes}
    {srcPort dstPort : Nat} {addrs : ProxyAddrs} (hsrc : (set srcIp srcPort addrs.src).1 = true)
    (hdst : (set dstIp dstPort addrs.dst).1 = true) (srcLine dstLine size : Int) :
    setAddrs set srcLine dstLine srcIp dstIp srcPort dstPort size addrs =
      (size, ⟨(set srcIp srcPort addrs.src).2, (set dstIp dstPort addrs.dst).2⟩) := by
  simp only [setAddrs, hsrc, hdst, not_true_eq_false, if_false]

theorem not_portOutOfRange {srcPort dstPort : Nat} (hsrc : srcPort < 65536) (hdst : dstPort < 65536) :
    ¬((srcPort : Int) < 0 ∨ (srcPort : Int) > 65535 ∨ (dstPort : Int) < 0 ∨
      (dstPort : Int) > 65535) := by
  omega

/-! ## Round trips -/

/-- Both addresses of the handler are of one family that the protocol knows. -/
def OneFamily (addrs : ProxyAddrs) : Prop :=
  addrs.src.family = addrs.dst.family ∧ (addrs.src.family = afInet ∨ addrs.src.family = afInet6)

instance (addrs : ProxyAddrs) : Decidable (OneFamily addrs) :=
  inferInstanceAs (Decidable (_ ∧ _))

theorem not_oneFamily {addrs : ProxyAddrs}
    (hnot4 : ¬(addrs.src.family = afInet ∧ addrs.dst.family = afInet))
    (hnot6 : ¬(addrs.src.family = afInet6 ∧ addrs.dst.family = afInet6)) : ¬OneFamily addrs := by
  rintro ⟨heq, h4 | h6⟩
  · exact hnot4 ⟨h4, heq ▸ h4⟩
  · exact hnot6 ⟨h6, heq ▸ h6⟩

/-- The receiver's part of the union behind the bytes it peeked at is `stale`. It takes the header
`made`, followed by `payload`, for a header of that length, and has the addresses `sent` after it;
where the header has none, it keeps its own. -/
def ReadBack (inet : Inet) (sent own : ProxyAddrs) (payload stale : Bytes) (made : Int × Bytes) :
    Prop :=
  made.1 = 0 ∧
    ∃ addrs, parseProxyHeader inet ((made.2 ++ payload).take 108 ++ stale)
        (min 108 (made.2 ++ payload).length) own = some ((made.2.length : Int), addrs) ∧
      if OneFamily sent then SameEndpoint addrs.src sent.src ∧ SameEndpoint addrs.dst sent.dst
      else addrs = own

/-- A header of at most 108 bytes stands whole at the head of the buffer. -/
theorem readBack_of_parse {inet : Inet} {sent own : ProxyAddrs} {header : Bytes}
    (hlen : header.length ≤ 108)
    (h : ∀ rest hdrSize, header.length ≤ hdrSize →
      ∃ addrs, parseProxyHeader inet (header ++ rest) hdrSize own = some ((header.length : Int), addrs) ∧
        if OneFamily sent then SameEndpoint addrs.src sent.src ∧ SameEndpoint addrs.dst sent.dst
        else addrs = own)
    (payload stale : Bytes) : ReadBack inet sent own payload stale (0, header) := by
  refine ⟨rfl, ?_⟩
  have hsize : header.length ≤ min 108 (header ++ payload).length := by
    rw [List.length_append]
    omega
  rw [List.take_append, List.take_of_length_le hlen, List.append_assoc]
  exact h _ _ hsize

section Version1

variable (inet : Inet) (sent own : ProxyAddrs)

/-- A header of version 1 whose addresses are set to the ones sent. -/
theorem readBack_v1 {proto srcIp dstIp : Bytes}
    (hproto : spaceByte ∉ proto ∧ cr ∉ proto ∧ proto ≠ unknown) (hprotoLen : proto.length = 4)
    (hsrc : PlainText srcIp) (hdst : PlainText dstIp) (hsrcLen : srcIp.length ≤ 39)
    (hdstLen : dstIp.length ≤ 39) (hone : OneFamily sent)
    (hset : ∀ size, ∃ addrs,
      parseAddrs inet proto srcIp dstIp (ntohs sent.src.port) (ntohs sent.dst.port) size own =
          (size, addrs) ∧
        SameEndpoint addrs.src sent.src ∧ SameEndpoint addrs.dst sent.dst)
    (payload stale : Bytes) :
    ReadBack inet sent own payload stale
      (0, proxyWord ++ (proto ++ [spaceByte]) ++
        addressText srcIp dstIp (uintToStr (ntohs sent.src.port))
          (uintToStr (ntohs sent.dst.port))) := by
  have hsrcPort := ntohs_lt sent.src.port
  have hdstPort := ntohs_lt sent.dst.port
  have hp := length_decimal_le (n := ntohs sent.src.port) (k := 5) (by omega) (by omega)
  have hq := length_decimal_le (n := ntohs sent.dst.port) (k := 5) (by omega) (by omega)
  apply readBack_of_parse
  · -- 6 + 4 + 1 bytes before the addresses, two of at most 39 bytes, two ports of at most 5.
    have hword : proxyWord.length = 6 := rfl
    have hcrlf : crlf.length = 2 := rfl
    simp only [addressText, uintToStr, List.length_append, List.length_cons, List.length_nil]
    omega
  · intro rest hdrSize hsize
    obtain ⟨addrs, hparse, hsame⟩ := hset _
    refine ⟨addrs, ?_, by rwa [if_pos hone]⟩
    rw [parseProxyHeader_addressText inet hproto hsrc hdst hsrcPort hdstPort rfl rest hsize, hparse]

theorem makeProxyHeaderV1_readBack (payload stale : Bytes) :
    ReadBack inet sent own payload stale (makeProxyHeaderV1 inet sent) := by
  have hsrcPort := ntohs_lt sent.src.port
  have hdstPort := ntohs_lt sent.dst.port
  unfold makeProxyHeaderV1
  split
  · rename_i hfam
    simp only [appendAddrs, sockAddrToIPPort_inet inet hfam.1, sockAddrToIPPort_inet inet hfam.2]
    refine readBack_v1 inet sent own (by decide) rfl (plainText_ntop _ _) (plainText_ntop _ _)
      (Nat.le_trans (inet.v4.length_ntop _) (by omega))
      (Nat.le_trans (inet.v4.length_ntop _) (by omega))
      ⟨hfam.1.trans hfam.2.symm, .inl hfam.1⟩ ?_ payload stale
    intro size
    obtain ⟨hsrcOk, hsrcSame⟩ := setAddr_ntop inet hfam.1 own.src
    obtain ⟨hdstOk, hdstSame⟩ := setAddr_ntop inet hfam.2 own.dst
    refine ⟨⟨_, _⟩, ?_, hsrcSame, hdstSame⟩
    rw [parseAddrs, if_neg (not_portOutOfRange hsrcPort hdstPort), if_pos rfl]
    exact setAddrs_of_ok hsrcOk hdstOk _ _ _
  · rename_i hnot4
    split
    · rename_i hfam
      simp only [appendAddrs, sockAddrToIPPort_inet6 inet hfam.1, sockAddrToIPPort_inet6 inet hfam.2]
      refine readBack_v1 inet sent own (by decide) rfl (plainText_ntop _ _) (plainText_ntop _ _)
        (inet.v6.length_ntop _) (inet.v6.length_ntop _)
        ⟨hfam.1.trans hfam.2.symm, .inr hfam.1⟩ ?_ payload stale
      intro size
      obtain ⟨hsrcOk, hsrcSame⟩ := setAddr6_ntop inet hfam.1 own.src
      obtain ⟨hdstOk, hdstSame⟩ := setAddr6_ntop inet hfam.2 own.dst
      refine ⟨⟨_, _⟩, ?_, hsrcSame, hdstSame⟩
      rw [parseAddrs, if_neg (not_portOutOfRange hsrcPort hdstPort), if_neg (by decide), if_pos rfl]
      exact setAddrs_of_ok hsrcOk hdstOk _ _ _
    · -- A line with `UNKNOWN`: the addresses of the receiver stay.
      rename_i hnot6
      apply readBack_of_parse (by decide)
      intro rest hdrSize hsize
      refine ⟨own, ?_, by rw [if_neg (not_oneFamily hnot4 hnot6)]⟩
      have hline := @parseProxyHeader_line inet unknown (by decide) rest _ hsize own
      rw [← List.append_assoc, List.append_assoc (proxyWord ++ unknown), hline]
      rfl

end Version1

section Version2

variable {famByte : UInt8} {block : Bytes}

theorem length_proxyHdr : (proxyHdr famByte block).length = 16 + block.length := by
  simp only [proxyHdr, List.length_append, List.Vector.toList_length, List.length_cons,
    List.length_nil]
  have hsig : pp2Signature.length = 12 := rfl
  omega

theorem fam_proxyHdr (rest : Bytes) : fam (proxyHdr famByte block ++ rest) = famByte :=
  rfl

/-- The other fields of a header of version 2 at the head of the buffer. -/
theorem proxyHdr_fields (hlen : block.length < 65536) (rest : Bytes) :
    (proxyHdr famByte block ++ rest).take 12 = pp2Signature ∧
      verCmd (proxyHdr famByte block ++ rest) = 0x21 ∧
      hdrLen (proxyHdr famByte block ++ rest) = block.length := by
  refine ⟨rfl, rfl, ?_⟩
  have hread : readBlock 2 (proxyHdr famByte block ++ rest) 14 = htons block.length := by
    have hsplit : proxyHdr famByte block ++ rest =
        (pp2Signature ++ [pp2Version ||| pp2CmdProxy, famByte]) ++
          ((htons block.length).toList ++ (block ++ rest)) := by
      simp only [proxyHdr, List.append_assoc]
    apply List.Vector.eq
    rw [hsplit]
    exact readAt_append rfl (List.Vector.toList_length _)
  rw [hdrLen, hread, ntohs_htons hlen]

/-- A part of the address block. -/
theorem readBlock_proxyHdr {n : Nat} {as cs : Bytes} {part : Block n} (rest : Bytes) {pos : Nat}
    (hpos : 16 + as.length = pos) :
    readBlock n (proxyHdr famByte (as ++ (part.toList ++ cs)) ++ rest) pos = part := by
  have hsplit : proxyHdr famByte (as ++ (part.toList ++ cs)) ++ rest =
      (pp2Signature ++ ([pp2Version ||| pp2CmdProxy, famByte] ++
        ((htons (as ++ (part.toList ++ cs)).length).toList ++ as))) ++
          (part.toList ++ (cs ++ rest)) := by
    simp only [proxyHdr, List.append_assoc]
  apply List.Vector.eq
  rw [hsplit]
  refine readAt_append ?_ (List.Vector.toList_length _)
  rw [← hpos]
  simp only [List.length_append, List.Vector.toList_length, List.length_cons, List.length_nil]
  have hsig : pp2Signature.length = 12 := rfl
  omega

/-- The four parts of an address block with addresses of `n` bytes. -/
theorem readBlock_addressBlock {n : Nat} (srcAddr dstAddr : Block n) (srcPort dstPort : Block 2)
    (rest : Bytes) :
    let hdr := proxyHdr famByte (addressBlock srcAddr dstAddr srcPort dstPort) ++ rest
    readBlock n hdr 16 = srcAddr ∧ readBlock n hdr (16 + n) = dstAddr ∧
      readBlock 2 hdr (16 + (n + n)) = srcPort ∧ readBlock 2 hdr (16 + (n + n + 2)) = dstPort := by
  refine ⟨?_, ?_, ?_, ?_⟩
  · exact @readBlock_proxyHdr _ n [] _ srcAddr rest 16 rfl
  · exact readBlock_proxyHdr rest (by rw [List.Vector.toList_length])
  · have hblock : addressBlock srcAddr dstAddr srcPort dstPort =
        (srcAddr.toList ++ dstAddr.toList) ++ (srcPort.toList ++ dstPort.toList) := by
      simp only [addressBlock, List.append_assoc]
    rw [hblock]
    exact readBlock_proxyHdr rest (by simp only [List.length_append, List.Vector.toList_length])
  · have hblock : addressBlock srcAddr dstAddr srcPort dstPort =
        (srcAddr.toList ++ dstAddr.toList ++ srcPort.toList) ++ (dstPort.toList ++ []) := by
      simp only [addressBlock, List.append_assoc, List.append_nil]
    rw [hblock]
    exact readBlock_proxyHdr rest (by simp only [List.length_append, List.Vector.toList_length])

theorem length_addressBlock {n : Nat} (srcAddr dstAddr : Block n) (srcPort dstPort : Block 2) :
    (addressBlock srcAddr dstAddr srcPort dstPort).length = n + n + 4 := by
  simp only [addressBlock, List.length_append, List.Vector.toList_length]
  omega

/-- A header of version 2 at the head of the buffer is parsed as one. -/
theorem parseProxyHeader_proxyHdr (inet : Inet) (hlen : block.length < 65536) (rest : Bytes)
    {hdrSize : Nat} (hsize : (proxyHdr famByte block).length ≤ hdrSize) (addrs : ProxyAddrs) :
    parseProxyHeader inet (proxyHdr famByte block ++ rest) hdrSize addrs =
      some (takeAddrs (proxyHdr famByte block ++ rest) (proxyHdr famByte block).length addrs) := by
  obtain ⟨hsig, hver, hdrLen⟩ := @proxyHdr_fields famByte block hlen rest
  rw [length_proxyHdr] at hsize
  have hv2 : isV2 (proxyHdr famByte block ++ rest) hdrSize := by
    refine ⟨by omega, hsig, ?_⟩
    rw [hver]
    decide
  have hcmd : (0x21 : UInt8) &&& 0xF = pp2CmdProxy := by decide
  rw [parseProxyHeader, if_pos hv2]
  simp only [parseProxyHeaderV2, hver, hdrLen, if_neg (Nat.not_lt.mpr hsize), if_pos hcmd,
    length_proxyHdr]

theorem makeProxyHeaderV2_readBack (inet : Inet) (sent own : ProxyAddrs) (payload stale : Bytes) :
    ReadBack inet sent own payload stale (makeProxyHeaderV2 sent) := by
  unfold makeProxyHeaderV2
  split
  · rename_i hfam
    have hlen := length_addressBlock sent.src.sinAddr sent.dst.sinAddr sent.src.port sent.dst.port
    apply readBack_of_parse (by rw [length_proxyHdr]; omega)
    intro rest hdrSize hsize
    obtain ⟨hsrc, hdst, hsrcPort, hdstPort⟩ := @readBlock_addressBlock pp2FamTcp4 4
      sent.src.sinAddr sent.dst.sinAddr sent.src.port sent.dst.port rest
    rw [parseProxyHeader_proxyHdr inet (by omega) rest hsize, takeAddrs, fam_proxyHdr,
      if_pos rfl, hsrc, hdst, hsrcPort, hdstPort]
    refine ⟨_, rfl, ?_⟩
    rw [if_pos ⟨hfam.1.trans hfam.2.symm, .inl hfam.1⟩]
    exact ⟨⟨hfam.1.symm, rfl, fun _ => rfl, fun h6 => absurd h6 afInet_ne_afInet6⟩,
      hfam.2.symm, rfl, fun _ => rfl, fun h6 => absurd h6 afInet_ne_afInet6⟩
  · rename_i hnot4
    split
    · rename_i hfam
      have hlen :=
        length_addressBlock sent.src.sin6Addr sent.dst.sin6Addr sent.src.port sent.dst.port
      apply readBack_of_parse (by rw [length_proxyHdr]; omega)
      intro rest hdrSize hsize
      obtain ⟨hsrc, hdst, hsrcPort, hdstPort⟩ := @readBlock_addressBlock pp2FamTcp6 16
        sent.src.sin6Addr sent.dst.sin6Addr sent.src.port sent.dst.port rest
      have hfam4 : pp2FamTcp6 ≠ pp2FamTcp4 := by decide
      rw [parseProxyHeader_proxyHdr inet (by omega) rest hsize, takeAddrs, fam_proxyHdr,
        if_neg hfam4, if_pos rfl, hsrc, hdst, hsrcPort, hdstPort]
      refine ⟨_, rfl, ?_⟩
      rw [if_pos ⟨hfam.1.trans hfam.2.symm, .inr hfam.1⟩]
      exact ⟨⟨hfam.1.symm, rfl, fun h4 => absurd h4.symm afInet_ne_afInet6, fun _ => rfl⟩,
        hfam.2.symm, rfl, fun h4 => absurd h4.symm afInet_ne_afInet6, fun _ => rfl⟩
    · -- No family and no addresses: those of the receiver stay.
      rename_i hnot6
      apply readBack_of_parse (by decide)
      intro rest hdrSize hsize
      refine ⟨own, ?_, by rw [if_neg (not_oneFamily hnot4 hnot6)]⟩
      rw [parseProxyHeader_proxyHdr inet (by decide) rest hsize]
      rfl

end Version2

/-- Headers of both versions are read back, whatever follows them on the connection and whatever the
buffer held before. -/
theorem headers_round_trip (inet : Inet) (sent own : ProxyAddrs) (payload stale : Bytes) :
    ReadBack inet sent own payload stale (makeProxyHeaderV1 inet sent) ∧
      ReadBack inet sent own payload stale (makeProxyHeaderV2 sent) :=
  ⟨makeProxyHeaderV1_readBack inet sent own payload stale,
    makeProxyHeaderV2_readBack inet sent own payload stale⟩

/-- An IPv4 address and port. -/
def sockAddr4 (a b c d : UInt8) (port : Nat) : SockAddr :=
  { family := afInet
    port := htons port
    sinAddr := ⟨[a, b, c, d], rfl⟩
    sin6Addr := zeros 16
    sin6ScopeId := zeros 4 }

/-- A connection from 10.0.0.7 to the port of another node. -/
def sampleAddrs : ProxyAddrs :=
  ⟨sockAddr4 10 0 0 7 40000, sockAddr4 10 0 0 2 54322⟩

theorem headers_round_trip_sample :
    OneFamily sampleAddrs ∧
      ReadBack canonicalInet sampleAddrs sampleAddrs [1, 0, 0, 0, 14] []
        (makeProxyHeaderV1 canonicalInet sampleAddrs) :=
  ⟨by decide, (headers_round_trip canonicalInet sampleAddrs sampleAddrs [1, 0, 0, 0, 14] []).1⟩

end PhxSql.Proxy
