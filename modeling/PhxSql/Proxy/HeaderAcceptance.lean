import PhxSql.Lib.Reads
import PhxSql.Proxy.ProxyProtocol

/-!
# Which PROXY headers are accepted

The header decides which client address the grants of MySQL are checked against. `WellFormedHeader`
says what a header is: a line of version 1 with valid addresses and ports, or with the protocol word
`UNKNOWN`, or a header of version 2 whose length covers the addresses of its family.

The parser accepts more. A line may have an unknown protocol word, a space at its end, ports that
`atoi` makes a number of, and address texts that `SetAddr` takes for the address of zeros. A header
of version 2 may be shorter than its addresses. A line with nothing after `PROXY` makes it read a
token that is not there. `headers_accepted_iff` says that these are all.
-/

set_option autoImplicit false

namespace PhxSql.Proxy

open PhxSql.Proto PhxSql.Lib

/-! ## Well-formed headers -/

/-- The text of a valid address. -/
def IsAddr {n bound : Nat} {anyText : Bytes} {mark : UInt8} (text : AddrText n bound anyText mark)
    (ip : Bytes) : Prop :=
  (text.pton ip).isSome = true ∧ spaceByte ∉ ip ∧ 0 ∉ ip

/-- A decimal port. -/
def IsPort (port : Bytes) : Prop :=
  port ≠ [] ∧ (∀ b ∈ port, isDigit b = true) ∧ digitsValue port ≤ 65535

/-- A line of version 1. -/
inductive V1Line (inet : Inet) : Bytes → Prop
  | tcp4 {srcIp dstIp srcPort dstPort : Bytes} :
      IsAddr inet.v4 srcIp → IsAddr inet.v4 dstIp → IsPort srcPort → IsPort dstPort →
      V1Line inet (proxyWord ++ (tcp4 ++ [spaceByte]) ++ addressText srcIp dstIp srcPort dstPort)
  | tcp6 {srcIp dstIp srcPort dstPort : Bytes} :
      IsAddr inet.v6 srcIp → IsAddr inet.v6 dstIp → IsPort srcPort → IsPort dstPort →
      V1Line inet (proxyWord ++ (tcp6 ++ [spaceByte]) ++ addressText srcIp dstIp srcPort dstPort)
  | unknown {rest : Bytes} :
      (rest = [] ∨ ∃ more, rest = spaceByte :: more) → cr ∉ rest →
      V1Line inet (proxyWord ++ (unknown ++ (rest ++ crlf)))

/-- The declared length covers the addresses of the family. -/
def CoversAddrs (cmd family : UInt8) (len : Nat) : Prop :=
  cmd = pp2CmdLocal ∨
    cmd = pp2CmdProxy ∧
      (family = pp2FamUnspec ∨ (family = pp2FamTcp4 ∧ 12 ≤ len) ∨ (family = pp2FamTcp6 ∧ 36 ≤ len))

/-- A header of version 2. -/
def V2Header (bs : Bytes) : Prop :=
  bs.take 12 = pp2Signature ∧ verCmd bs &&& 0xF0 = pp2Version ∧ bs.length = 16 + hdrLen bs ∧
    CoversAddrs (verCmd bs &&& 0xF) (fam bs) (hdrLen bs)

def WellFormedHeader (inet : Inet) (bs : Bytes) : Prop :=
  V1Line inet bs ∨ V2Header bs

/-- The bytes of the buffer that addresses are made from. -/
def addressReads (hdr : Bytes) (hdrSize : Nat) : List (Nat × Nat) :=
  if isV2 hdr hdrSize then
    if verCmd hdr &&& 0xF = pp2CmdProxy ∧ fam hdr = pp2FamTcp4 then
      [(16, 4), (24, 2), (20, 4), (26, 2)]
    else if verCmd hdr &&& 0xF = pp2CmdProxy ∧ fam hdr = pp2FamTcp6 then
      [(16, 16), (48, 2), (32, 16), (50, 2)]
    else []
  else [(0, (lineOf hdr hdrSize).length)]

/-- A result of the parser is good if what was accepted is a well-formed header that was peeked at
whole and has the addresses in it, or if it is an error. -/
def ResultFits (inet : Inet) (hdr : Bytes) (hdrSize : Nat) (result : Option (Int × ProxyAddrs)) :
    Prop :=
  match result with
  | none => False
  | some (ret, _) =>
    if 0 < ret then
      ret ≤ hdrSize ∧ WellFormedHeader inet (hdr.take ret.toNat) ∧
        Inside ret.toNat (addressReads hdr hdrSize)
    else ret < 0

/-- Only well-formed headers are accepted, and no missing token is read. -/
def AcceptsOnlyHeaders (inet : Inet) (hdr : Bytes) (hdrSize : Nat) (addrs : ProxyAddrs) : Prop :=
  ResultFits inet hdr hdrSize (parseProxyHeader inet hdr hdrSize addrs)

/-! ## The condition -/

/-- `atoi` gives a port. -/
def PortInRange (port : Bytes) : Prop :=
  0 ≤ atoi (cStr port) ∧ atoi (cStr port) ≤ 65535

instance (port : Bytes) : Decidable (PortInRange port) :=
  inferInstanceAs (Decidable (_ ∧ _))

/-- `SetAddr` or `SetAddr6` succeeds on a token. -/
def Readable {n bound : Nat} {anyText : Bytes} {mark : UInt8} (text : AddrText n bound anyText mark)
    (ip : Bytes) : Prop :=
  (readAddr text (cStr ip)).isSome = true

instance {n bound : Nat} {anyText : Bytes} {mark : UInt8} (text : AddrText n bound anyText mark)
    (ip : Bytes) : Decidable (Readable text ip) :=
  inferInstanceAs (Decidable (_ = true))

/-- The checks of `ParseProxyHeaderV1` on the tokens of a line. -/
def PassesChecks (inet : Inet) (proto srcIp dstIp srcPort dstPort : Bytes) : Prop :=
  PortInRange srcPort ∧ PortInRange dstPort ∧
    (proto = tcp4 → Readable inet.v4 srcIp ∧ Readable inet.v4 dstIp) ∧
    (proto = tcp6 → Readable inet.v6 srcIp ∧ Readable inet.v6 dstIp)

instance (inet : Inet) (proto srcIp dstIp srcPort dstPort : Bytes) :
    Decidable (PassesChecks inet proto srcIp dstIp srcPort dstPort) :=
  inferInstanceAs (Decidable (_ ∧ _ ∧ _ ∧ _))

/-- An address that is neither empty nor `0` nor `*` and is not cut at a zero byte. -/
def PlainAddr (ip : Bytes) : Prop :=
  ip ≠ [] ∧ ip ≠ [48] ∧ ip ≠ [42] ∧ 0 ∉ ip

instance (ip : Bytes) : Decidable (PlainAddr ip) :=
  inferInstanceAs (Decidable (_ ∧ _))

/-- A port of digits only, whose value is not cut to 32 bits. -/
def PlainPort (port : Bytes) : Prop :=
  port ≠ [] ∧ (∀ b ∈ port, isDigit b = true) ∧ digitsValue port < 2 ^ 32

instance (port : Bytes) : Decidable (PlainPort port) :=
  inferInstanceAs (Decidable (_ ∧ _))

/-- The protocol word is known, no space ends the line, and addresses and ports are plain. -/
def PlainLine (line proto srcIp dstIp srcPort dstPort : Bytes) : Prop :=
  (proto = tcp4 ∨ proto = tcp6) ∧ line.getLast? ≠ some spaceByte ∧ PlainAddr srcIp ∧
    PlainAddr dstIp ∧ PlainPort srcPort ∧ PlainPort dstPort

instance (line proto srcIp dstIp srcPort dstPort : Bytes) :
    Decidable (PlainLine line proto srcIp dstIp srcPort dstPort) :=
  inferInstanceAs (Decidable (_ ∧ _))

/-- There is a token after `PROXY`, and a line of six tokens that passes the checks is plain. -/
def V1Fits (inet : Inet) (line : Bytes) : Prop :=
  line ≠ proxyWord ∧
    ∀ word proto srcIp dstIp srcPort dstPort,
      splitStr line = [word, proto, srcIp, dstIp, srcPort, dstPort] → proto ≠ unknown →
      PassesChecks inet proto srcIp dstIp srcPort dstPort →
      PlainLine line proto srcIp dstIp srcPort dstPort

/-- The length covers the addresses if there are any and the header is not cut off. -/
def V2Fits (hdr : Bytes) (hdrSize : Nat) : Prop :=
  16 + hdrLen hdr ≤ hdrSize → verCmd hdr &&& 0xF = pp2CmdProxy →
    (fam hdr = pp2FamTcp4 → 12 ≤ hdrLen hdr) ∧ (fam hdr = pp2FamTcp6 → 36 ≤ hdrLen hdr)

instance (hdr : Bytes) (hdrSize : Nat) : Decidable (V2Fits hdr hdrSize) :=
  inferInstanceAs (Decidable (_ → _ → _))

/-- The condition on the buffer and the number of bytes that were peeked at. -/
def HeaderFits (inet : Inet) (hdr : Bytes) (hdrSize : Nat) : Prop :=
  if isV2 hdr hdrSize then V2Fits hdr hdrSize
  else isV1 hdr hdrSize → hasLine hdr hdrSize → V1Fits inet (lineOf hdr hdrSize)

/-! ## Addresses and ports -/

theorem cStr_eq_self {str : Bytes} (h : 0 ∉ str) : cStr str = str := by
  refine List.takeWhile_eq_self_iff.mpr fun b hb => decide_eq_true ?_
  rintro rfl
  exact h hb

section AddrText

variable {n bound : Nat} {anyText : Bytes} {mark : UInt8} (text : AddrText n bound anyText mark)

theorem isAddr_of_readable {ip : Bytes} (hplain : PlainAddr ip) (hspace : spaceByte ∉ ip)
    (h : Readable text ip) : IsAddr text ip := by
  obtain ⟨hnil, hzero, hstar, hnul⟩ := hplain
  refine ⟨?_, hspace, hnul⟩
  rw [Readable, cStr_eq_self hnul, readAddr] at h
  split at h
  · rename_i hany
    rcases hany with hany | hany | hany | hany
    · exact absurd hany hnil
    · exact absurd hany hzero
    · -- The text of the address of zeros is not given to `inet_pton`, but is valid.
      have hpton := text.pton_ntop (zeros n)
      have htext : text.ntop (zeros n) = ip := text.ntop_any.trans hany.symm
      rw [htext] at hpton
      rw [hpton]
      rfl
    · exact absurd hany hstar
  · exact h

theorem plainAddr_of_isAddr (h0 : mark ≠ 48) (hstar : mark ≠ 42) {ip : Bytes}
    (h : IsAddr text ip) : PlainAddr ip := by
  obtain ⟨hpton, -, hnul⟩ := h
  obtain ⟨a, ha⟩ := Option.isSome_iff_exists.mp hpton
  have hmark := text.mark_mem ip a ha
  refine ⟨?_, ?_, ?_, hnul⟩
  · rintro rfl
    exact absurd hmark List.not_mem_nil
  · rintro rfl
    exact h0 (List.mem_singleton.mp hmark)
  · rintro rfl
    exact hstar (List.mem_singleton.mp hmark)

end AddrText

theorem isPort_of_portInRange {port : Bytes} (hplain : PlainPort port) (h : PortInRange port) :
    IsPort port := by
  obtain ⟨hne, hdigits, hvalue⟩ := hplain
  have hnul : 0 ∉ port := fun hmem => absurd (hdigits 0 hmem) (by decide)
  refine ⟨hne, hdigits, ?_⟩
  rw [PortInRange, cStr_eq_self hnul, atoi, scanSigned_digits hne hdigits (by omega),
    Int.bmod_def] at h
  split at h <;> omega

theorem plainPort_of_isPort {port : Bytes} (h : IsPort port) : PlainPort port :=
  ⟨h.1, h.2.1, Nat.lt_of_le_of_lt h.2.2 (by omega)⟩

theorem spaceByte_not_mem_of_isPort {port : Bytes} (h : IsPort port) : spaceByte ∉ port :=
  fun hmem => absurd (h.2.1 _ hmem) (by decide)

/-! ## Lines -/

/-- A line at the head of the buffer. -/
theorem take_of_hasLine {hdr : Bytes} {hdrSize : Nat} (hsize : hdrSize ≤ hdr.length)
    (h : hasLine hdr hdrSize) :
    (lineOf hdr hdrSize).length + 2 ≤ hdrSize ∧ cr ∉ lineOf hdr hdrSize ∧
      hdr.take ((lineOf hdr hdrSize).length + 2) = lineOf hdr hdrSize ++ crlf := by
  obtain ⟨hmem, hlf⟩ := h
  obtain ⟨line, rest, hsplit, hcr⟩ := List.eq_append_cons_of_mem hmem
  have hall : ∀ b ∈ line, decide (b ≠ cr) = true := by
    intro b hb
    refine decide_eq_true ?_
    rintro rfl
    exact hcr hb
  have hline : lineOf hdr hdrSize = line := by
    rw [lineOf, hsplit, List.takeWhile_append_of_pos hall, List.takeWhile_cons_of_neg (by simp),
      List.append_nil]
  have hlen := congrArg List.length hsplit
  rw [List.length_take, List.length_append, List.length_cons] at hlen
  rw [hline] at hlf ⊢
  refine ⟨by omega, hcr, ?_⟩
  -- The carriage return is inside what `memchr` looks at, the line feed is the byte after it.
  have htake : hdr.take (line.length + 1) = line ++ [cr] := by
    have hmin : min (line.length + 1) (hdrSize - 1) = line.length + 1 := by omega
    rw [← hmin, ← List.take_take, hsplit, List.take_append, List.take_of_length_le (by omega),
      Nat.add_sub_cancel_left]
    rfl
  have hlt : line.length + 1 < hdr.length := by omega
  rw [List.getD_eq_getElem?_getD, List.getElem?_eq_getElem hlt, Option.getD_some] at hlf
  rw [List.take_add_one, htake, List.getElem?_eq_getElem hlt, hlf, List.append_assoc]
  rfl

/-- The tokens of a line that begins with `PROXY` and a space. -/
theorem splitStr_proxyWord (text : Bytes) :
    splitStr (proxyWord ++ text) = proxyWord.dropLast :: splitStr text := by
  have hword : proxyWord = proxyWord.dropLast ++ [spaceByte] := rfl
  rw [splitStr, hword, List.append_assoc, List.singleton_append, tokens_append_cons (by decide)]
  rfl

theorem V1Line.exists_eq {inet : Inet} {bs : Bytes} (h : V1Line inet bs) :
    ∃ text, bs = proxyWord ++ text := by
  cases h with
  | tcp4 => exact ⟨_, List.append_assoc _ _ _⟩
  | tcp6 => exact ⟨_, List.append_assoc _ _ _⟩
  | unknown => exact ⟨_, rfl⟩

/-- The line with addresses and ports, before its end. -/
def addressLine (proto srcIp dstIp srcPort dstPort : Bytes) : Bytes :=
  proxyWord ++ (proto ++ spaceByte :: (srcIp ++ spaceByte :: (dstIp ++ spaceByte ::
    (srcPort ++ spaceByte :: dstPort))))

theorem addressLine_crlf (proto srcIp dstIp srcPort dstPort : Bytes) :
    proxyWord ++ (proto ++ [spaceByte]) ++ addressText srcIp dstIp srcPort dstPort =
      addressLine proto srcIp dstIp srcPort dstPort ++ crlf := by
  simp only [addressLine, addressText, List.append_assoc, List.cons_append, List.nil_append]

/-- A line of six tokens, up to a space at its end. -/
theorem eq_addressLine {text word proto srcIp dstIp srcPort dstPort : Bytes}
    (h : splitStr (proxyWord ++ text) = [word, proto, srcIp, dstIp, srcPort, dstPort])
    (hlast : (proxyWord ++ text).getLast? ≠ some spaceByte) :
    proxyWord ++ text = addressLine proto srcIp dstIp srcPort dstPort := by
  have hjoin := @intercalate_tokens _ _ spaceByte (proxyWord ++ text) (by simp [proxyWord])
  have hword : word = proxyWord.dropLast := by
    rw [splitStr_proxyWord] at h
    exact (List.cons.inj h).1.symm
  rw [if_neg hlast, List.append_nil, ← splitStr, h, hword] at hjoin
  rw [hjoin]
  simp [addressLine, List.intercalate, proxyWord, spaceByte]

/-- A plain line of a family. -/
theorem plainLine_addressLine {n bound : Nat} {anyText : Bytes} {mark : UInt8}
    (text : AddrText n bound anyText mark) (h0 : mark ≠ 48) (hstar : mark ≠ 42)
    {proto srcIp dstIp srcPort dstPort : Bytes} (hproto : proto = tcp4 ∨ proto = tcp6)
    (hsrc : IsAddr text srcIp) (hdst : IsAddr text dstIp) (hsrcPort : IsPort srcPort)
    (hdstPort : IsPort dstPort) :
    splitStr (addressLine proto srcIp dstIp srcPort dstPort) =
        [proxyWord.dropLast, proto, srcIp, dstIp, srcPort, dstPort] ∧
      PlainLine (addressLine proto srcIp dstIp srcPort dstPort) proto srcIp dstIp srcPort
        dstPort := by
  have hspace : spaceByte ∉ proto := by
    rcases hproto with rfl | rfl <;> decide
  have hportSpace := spaceByte_not_mem_of_isPort hdstPort
  refine ⟨splitStr_line hspace hsrc.2.1 hdst.2.1 (spaceByte_not_mem_of_isPort hsrcPort) hportSpace
    hdstPort.1, hproto, ?_, plainAddr_of_isAddr text h0 hstar hsrc,
    plainAddr_of_isAddr text h0 hstar hdst, plainPort_of_isPort hsrcPort,
    plainPort_of_isPort hdstPort⟩
  -- The last byte belongs to the port.
  have hline : addressLine proto srcIp dstIp srcPort dstPort =
      (proxyWord ++ (proto ++ spaceByte :: (srcIp ++ spaceByte :: (dstIp ++ spaceByte ::
        (srcPort ++ [spaceByte]))))) ++ dstPort := by
    simp only [addressLine, List.append_assoc, List.cons_append, List.nil_append]
  rw [hline, List.getLast?_append_of_ne_nil _ hdstPort.1]
  exact fun hlast => hportSpace (List.mem_of_getLast? hlast)

theorem splitStr_unknown {rest : Bytes} (h : rest = [] ∨ ∃ more, rest = spaceByte :: more) :
    ∃ ts, splitStr (unknown ++ rest) = unknown :: ts := by
  rcases h with rfl | ⟨more, rfl⟩
  · exact ⟨[], by decide⟩
  · exact ⟨_, tokens_append_cons (by decide) more⟩

section SixTokens

variable {inet : Inet} {text word proto srcIp dstIp srcPort dstPort : Bytes}

/-- A line that passes the checks is well formed if it is plain. -/
theorem wellFormedHeader_line_iff
    (hsplit : splitStr (proxyWord ++ text) = [word, proto, srcIp, dstIp, srcPort, dstPort])
    (hproto : proto ≠ unknown) (hpass : PassesChecks inet proto srcIp dstIp srcPort dstPort) :
    WellFormedHeader inet (proxyWord ++ text ++ crlf) ↔
      PlainLine (proxyWord ++ text) proto srcIp dstIp srcPort dstPort := by
  constructor
  · rintro (hv1 | hv2)
    · -- The tokens of the well-formed line are those of the line.
      generalize hbs : proxyWord ++ text ++ crlf = bs at hv1
      cases hv1 with
      | tcp4 hsrc hdst hsrcPort hdstPort =>
        obtain ⟨htokens, hplain⟩ := plainLine_addressLine inet.v4 (by decide) (by decide) (.inl rfl)
          hsrc hdst hsrcPort hdstPort
        rw [addressLine_crlf] at hbs
        rw [List.append_cancel_right hbs] at hsplit ⊢
        cases htokens.symm.trans hsplit
        exact hplain
      | tcp6 hsrc hdst hsrcPort hdstPort =>
        obtain ⟨htokens, hplain⟩ := plainLine_addressLine inet.v6 (by decide) (by decide) (.inr rfl)
          hsrc hdst hsrcPort hdstPort
        rw [addressLine_crlf] at hbs
        rw [List.append_cancel_right hbs] at hsplit ⊢
        cases htokens.symm.trans hsplit
        exact hplain
      | unknown hrest _ =>
        rw [List.append_assoc, ← List.append_assoc unknown] at hbs
        have htext := List.append_cancel_right (List.append_cancel_left hbs)
        obtain ⟨ts, htokens⟩ := splitStr_unknown hrest
        rw [splitStr_proxyWord, htext, htokens] at hsplit
        exact absurd (List.cons.inj (List.cons.inj hsplit).2).1.symm hproto
    · rw [List.append_assoc] at hv2
      exact absurd hv2.1 (take_line_ne_signature _)
  · rintro ⟨hfamily, hlast, hsrc, hdst, hsrcPort, hdstPort⟩
    obtain ⟨hsrcRange, hdstRange, hread4, hread6⟩ := hpass
    have hspace : ∀ t ∈ [word, proto, srcIp, dstIp, srcPort, dstPort], spaceByte ∉ t := by
      rw [← hsplit]
      exact fun t ht => sep_not_mem_of_mem_tokens ht
    have hsrcSpace := hspace srcIp (by simp)
    have hdstSpace := hspace dstIp (by simp)
    rw [eq_addressLine hsplit hlast, ← addressLine_crlf]
    rcases hfamily with rfl | rfl
    · exact .inl (.tcp4 (isAddr_of_readable _ hsrc hsrcSpace (hread4 rfl).1)
        (isAddr_of_readable _ hdst hdstSpace (hread4 rfl).2)
        (isPort_of_portInRange hsrcPort hsrcRange) (isPort_of_portInRange hdstPort hdstRange))
    · exact .inl (.tcp6 (isAddr_of_readable _ hsrc hsrcSpace (hread6 rfl).1)
        (isAddr_of_readable _ hdst hdstSpace (hread6 rfl).2)
        (isPort_of_portInRange hsrcPort hsrcRange) (isPort_of_portInRange hdstPort hdstRange))

end SixTokens

/-! ## The checks -/

theorem setAddr_fst (inet : Inet) (ip : Bytes) (port : Nat) (addr : SockAddr) :
    (setAddr inet ip port addr).1 = (readAddr inet.v4 ip).isSome := by
  unfold setAddr
  cases readAddr inet.v4 ip <;> rfl

theorem setAddr6_fst (inet : Inet) (ip : Bytes) (port : Nat) (addr : SockAddr) :
    (setAddr6 inet ip port addr).1 = (readAddr inet.v6 ip).isSome := by
  unfold setAddr6
  cases readAddr inet.v6 ip <;> rfl

/-- Both addresses can be set, or an error is returned. -/
theorem setAddrs_fst {set : Bytes → Nat → SockAddr → Bool × SockAddr} {read : Bytes → Bool}
    (hset : ∀ ip port addr, (set ip port addr).1 = read ip) (srcLine dstLine : Int)
    (hlines : 0 < srcLine ∧ 0 < dstLine) (srcIp dstIp : Bytes) (srcPort dstPort : Nat) (size : Int)
    (addrs : ProxyAddrs) :
    let ret := (setAddrs set srcLine dstLine srcIp dstIp srcPort dstPort size addrs).1
    ret = size ∧ (read srcIp = true ∧ read dstIp = true) ∨
      ret < 0 ∧ ¬(read srcIp = true ∧ read dstIp = true) := by
  simp only [setAddrs, hset]
  split
  · rename_i hsrc
    exact .inr ⟨by omega, fun h => hsrc h.1⟩
  · rename_i hsrc
    split
    · rename_i hdst
      exact .inr ⟨by omega, fun h => hdst h.2⟩
    · rename_i hdst
      exact .inl ⟨rfl, not_not.mp hsrc, not_not.mp hdst⟩

/-- `ParseProxyHeaderV1` on six tokens returns the size if they pass the checks, else an error. -/
theorem parseAddrs_fst (inet : Inet) (proto srcIp dstIp srcPort dstPort : Bytes) (size : Int)
    (addrs : ProxyAddrs) :
    let ret := (parseAddrs inet proto (cStr srcIp) (cStr dstIp) (atoi (cStr srcPort))
      (atoi (cStr dstPort)) size addrs).1
    ret = size ∧ PassesChecks inet proto srcIp dstIp srcPort dstPort ∨
      ret < 0 ∧ ¬PassesChecks inet proto srcIp dstIp srcPort dstPort := by
  simp only [parseAddrs]
  split
  · rename_i hrange
    refine .inr ⟨by simp, ?_⟩
    rintro ⟨⟨hsrc0, hsrc⟩, ⟨hdst0, hdst⟩, -⟩
    omega
  · rename_i hrange
    have hsrcRange : PortInRange srcPort := ⟨by omega, by omega⟩
    have hdstRange : PortInRange dstPort := ⟨by omega, by omega⟩
    have htcp : tcp6 ≠ tcp4 := by decide
    split
    · rename_i hproto
      subst hproto
      rcases setAddrs_fst (setAddr_fst inet) 210 213 (by decide) (cStr srcIp) (cStr dstIp) _ _
        size addrs with ⟨hret, hread⟩ | ⟨hret, hread⟩
      · exact .inl ⟨hret, hsrcRange, hdstRange, fun _ => hread, fun h => absurd h.symm htcp⟩
      · exact .inr ⟨hret, fun h => hread (h.2.2.1 rfl)⟩
    · rename_i hnot4
      split
      · rename_i hproto
        subst hproto
        rcases setAddrs_fst (setAddr6_fst inet) 217 220 (by decide) (cStr srcIp) (cStr dstIp) _ _
          size addrs with ⟨hret, hread⟩ | ⟨hret, hread⟩
        · exact .inl ⟨hret, hsrcRange, hdstRange, fun h => absurd h htcp, fun _ => hread⟩
        · exact .inr ⟨hret, fun h => hread (h.2.2.2 rfl)⟩
      · rename_i hnot6
        exact .inl ⟨rfl, hsrcRange, hdstRange, fun h => absurd h hnot4, fun h => absurd h hnot6⟩

/-! ## Version 1 -/

section Version1

variable {inet : Inet} {hdr : Bytes} {hdrSize : Nat} {addrs : ProxyAddrs}

theorem resultFits_of_neg {ret : Int} (h : ret < 0) :
    ResultFits inet hdr hdrSize (some (ret, addrs)) := by
  rw [ResultFits, if_neg (by omega)]
  exact h

/-- The line begins with `PROXY` and a space. -/
theorem lineOf_eq (h : isV1 hdr hdrSize) : ∃ text, lineOf hdr hdrSize = proxyWord ++ text := by
  obtain ⟨hsize, hword⟩ := h
  have hsplit : hdr.take (hdrSize - 1) = proxyWord ++ (hdr.take (hdrSize - 1)).drop 6 := by
    have htake : (hdr.take (hdrSize - 1)).take 6 = proxyWord := by
      rw [List.take_take, Nat.min_eq_left (by omega), hword]
    rw [← htake, List.take_append_drop]
  refine ⟨((hdr.take (hdrSize - 1)).drop 6).takeWhile fun b => b ≠ cr, ?_⟩
  rw [lineOf, hsplit, List.takeWhile_append_of_pos (by decide +kernel), ← hsplit]

/-- An accepted line is good if it is well formed. -/
theorem resultFits_line_iff (hsize : hdrSize ≤ hdr.length) (hv2 : ¬isV2 hdr hdrSize)
    (hline : hasLine hdr hdrSize) :
    ResultFits inet hdr hdrSize (some ((lineOf hdr hdrSize).length + 2, addrs)) ↔
      WellFormedHeader inet (lineOf hdr hdrSize ++ crlf) := by
  obtain ⟨hlen, -, htake⟩ := take_of_hasLine hsize hline
  have hret : ((lineOf hdr hdrSize).length + 2 : Int).toNat = (lineOf hdr hdrSize).length + 2 := by
    omega
  rw [ResultFits, if_pos (by omega), hret, htake, addressReads, if_neg hv2]
  constructor
  · exact fun h => h.2.1
  · refine fun h => ⟨by omega, h, ?_⟩
    intro r hr i _ hi
    rw [List.mem_singleton.mp hr] at hi
    simp only at hi
    omega

/-- A line with another number of tokens than six is refused. -/
theorem parseTokens_cases {word proto : Bytes} {ts : List Bytes} {size : Int}
    (hproto : proto ≠ unknown) :
    (∃ srcIp dstIp srcPort dstPort, ts = [srcIp, dstIp, srcPort, dstPort] ∧
      parseTokens inet (word :: proto :: ts) size addrs =
        some (parseAddrs inet proto (cStr srcIp) (cStr dstIp) (atoi (cStr srcPort))
          (atoi (cStr dstPort)) size addrs)) ∨
      ts.length ≠ 4 ∧ parseTokens inet (word :: proto :: ts) size addrs = some (-197, addrs) := by
  simp only [parseTokens, List.getElem?_cons_succ, List.getElem?_cons_zero, if_neg hproto]
  rcases ts with _ | ⟨a, _ | ⟨b, _ | ⟨c, _ | ⟨d, _ | ⟨e, ts⟩⟩⟩⟩⟩
  · exact .inr ⟨by simp, rfl⟩
  · exact .inr ⟨by simp, rfl⟩
  · exact .inr ⟨by simp, rfl⟩
  · exact .inr ⟨by simp, rfl⟩
  · exact .inl ⟨a, b, c, d, rfl, rfl⟩
  · exact .inr ⟨by simp, rfl⟩

theorem resultFits_v1_iff (hsize : hdrSize ≤ hdr.length) (hv2 : ¬isV2 hdr hdrSize)
    (hv1 : isV1 hdr hdrSize) (hline : hasLine hdr hdrSize) :
    ResultFits inet hdr hdrSize (parseTokens inet (splitStr (lineOf hdr hdrSize))
        ((lineOf hdr hdrSize).length + 2) addrs) ↔
      V1Fits inet (lineOf hdr hdrSize) := by
  obtain ⟨-, hcr, -⟩ := take_of_hasLine hsize hline
  have hfits := fun addrs => @resultFits_line_iff inet hdr hdrSize addrs hsize hv2 hline
  obtain ⟨text, htext⟩ := lineOf_eq hv1
  rw [htext] at hcr hfits ⊢
  have hsplit := splitStr_proxyWord text
  cases htokens : splitStr text with
  | nil =>
    -- There is nothing after `PROXY`.
    have hnil : text = [] := by
      by_contra hne
      exact tokensLoop_ne_nil (.inl hne) htokens
    rw [hsplit, htokens]
    constructor
    · exact fun h => h.elim
    · intro h
      exact absurd (by rw [hnil, List.append_nil]) h.1
  | cons proto ts =>
    have hne : proxyWord ++ text ≠ proxyWord := by
      intro heq
      have hnil : text = [] := by simpa using heq
      rw [hnil] at htokens
      cases htokens
    rw [htokens] at hsplit
    rw [hsplit]
    by_cases hunknown : proto = unknown
    · subst hunknown
      have hresult : parseTokens inet (proxyWord.dropLast :: unknown :: ts)
          ((proxyWord ++ text).length + 2) addrs =
            some (((proxyWord ++ text).length : Int) + 2, addrs) := rfl
      rw [hresult, hfits]
      constructor
      · refine fun _ => ⟨hne, fun _ proto _ _ _ _ hs hproto => absurd ?_ hproto⟩
        exact (List.cons.inj (List.cons.inj (hsplit.symm.trans hs)).2).1.symm
      · intro _
        have hcrText : cr ∉ text := fun hmem => hcr (List.mem_append_right _ hmem)
        obtain ⟨rest, hrest, hshape⟩ :
            ∃ rest, text = unknown ++ rest ∧ (rest = [] ∨ ∃ more, rest = spaceByte :: more) := by
          rcases eq_of_tokens_eq_cons htokens with heq | ⟨more, heq⟩
          · exact ⟨[], by rw [heq, List.append_nil], .inl rfl⟩
          · exact ⟨_, heq, .inr ⟨more, rfl⟩⟩
        rw [hrest, List.append_assoc, List.append_assoc]
        refine .inl (.unknown hshape fun hmem => hcrText ?_)
        rw [hrest]
        exact List.mem_append_right _ hmem
    · rcases @parseTokens_cases inet addrs proxyWord.dropLast proto ts
        ((proxyWord ++ text).length + 2) hunknown with
        ⟨srcIp, dstIp, srcPort, dstPort, hts, hresult⟩ | ⟨hlen, hresult⟩
      · -- Six tokens: the checks decide, and then whether the line is plain.
        subst hts
        rw [hresult]
        have hv1Fits : V1Fits inet (proxyWord ++ text) ↔
            (PassesChecks inet proto srcIp dstIp srcPort dstPort →
              PlainLine (proxyWord ++ text) proto srcIp dstIp srcPort dstPort) := by
          constructor
          · exact fun h => h.2 _ _ _ _ _ _ hsplit hunknown
          · refine fun h => ⟨hne, fun _ _ _ _ _ _ hs _ hpass => ?_⟩
            cases hsplit.symm.trans hs
            exact h hpass
        have hret := parseAddrs_fst inet proto srcIp dstIp srcPort dstPort
          ((proxyWord ++ text).length + 2) addrs
        generalize parseAddrs inet proto (cStr srcIp) (cStr dstIp) (atoi (cStr srcPort))
          (atoi (cStr dstPort)) ((proxyWord ++ text).length + 2) addrs = result at hret
        obtain ⟨ret, addrs'⟩ := result
        rcases hret with ⟨hret, hpass⟩ | ⟨hret, hpass⟩
        · simp only at hret
          subst hret
          rw [hfits, wellFormedHeader_line_iff hsplit hunknown hpass, hv1Fits]
          exact ⟨fun h _ => h, fun h => h hpass⟩
        · exact iff_of_true (resultFits_of_neg hret) (hv1Fits.mpr fun h => absurd h hpass)
      · rw [hresult]
        refine iff_of_true (resultFits_of_neg (by decide)) ⟨hne, fun _ _ _ _ _ _ hs _ _ => ?_⟩
        cases hsplit.symm.trans hs
        exact absurd rfl hlen

end Version1

/-! ## Version 2 -/

section Version2

variable {inet : Inet} {hdr : Bytes} {hdrSize : Nat} {addrs : ProxyAddrs}

theorem readAt_take {bs : Bytes} {pos len k : Nat} (h : pos + len ≤ k) :
    readAt (bs.take k) pos len = readAt bs pos len := by
  rw [readAt, readAt, List.drop_take, List.take_take, Nat.min_eq_left (by omega)]

/-- The first bytes of a header have its fields. -/
theorem v2Header_take_iff (hv2 : isV2 hdr hdrSize) (hsize : hdrSize ≤ hdr.length)
    (hlen : 16 + hdrLen hdr ≤ hdrSize) :
    WellFormedHeader inet (hdr.take (16 + hdrLen hdr)) ↔
      CoversAddrs (verCmd hdr &&& 0xF) (fam hdr) (hdrLen hdr) := by
  obtain ⟨-, hsig, hver⟩ := hv2
  have hsig' : (hdr.take (16 + hdrLen hdr)).take 12 = pp2Signature := by
    rw [List.take_take, Nat.min_eq_left (by omega), hsig]
  have hverCmd : verCmd (hdr.take (16 + hdrLen hdr)) = verCmd hdr := by
    have hlt : 12 < 16 + hdrLen hdr := by omega
    simp only [verCmd, List.getD_eq_getElem?_getD, List.getElem?_take, if_pos hlt]
  have hfam : fam (hdr.take (16 + hdrLen hdr)) = fam hdr := by
    have hlt : 13 < 16 + hdrLen hdr := by omega
    simp only [fam, List.getD_eq_getElem?_getD, List.getElem?_take, if_pos hlt]
  have hdrLen' : hdrLen (hdr.take (16 + hdrLen hdr)) = hdrLen hdr := by
    have hread : readBlock 2 (hdr.take (16 + hdrLen hdr)) 14 = readBlock 2 hdr 14 :=
      Subtype.ext (readAt_take (by omega))
    rw [hdrLen, hread, ← hdrLen]
  constructor
  · rintro (hv1 | ⟨-, -, -, hcovers⟩)
    · obtain ⟨text, htext⟩ := hv1.exists_eq
      rw [htext] at hsig'
      exact absurd hsig' (take_line_ne_signature text)
    · rwa [hverCmd, hfam, hdrLen'] at hcovers
  · intro hcovers
    refine .inr ⟨hsig', by rwa [hverCmd], ?_, by rwa [hverCmd, hfam, hdrLen']⟩
    rw [hdrLen', List.length_take]
    omega

/-- An accepted header is good if it covers its addresses, which are then inside it. -/
theorem resultFits_header_iff (hv2 : isV2 hdr hdrSize) (hsize : hdrSize ≤ hdr.length)
    (hlen : 16 + hdrLen hdr ≤ hdrSize) :
    ResultFits inet hdr hdrSize (some (((16 + hdrLen hdr : Nat) : Int), addrs)) ↔
      CoversAddrs (verCmd hdr &&& 0xF) (fam hdr) (hdrLen hdr) ∧
        Inside (16 + hdrLen hdr) (addressReads hdr hdrSize) := by
  rw [ResultFits, if_pos (by omega), Int.toNat_natCast, v2Header_take_iff hv2 hsize hlen]
  exact ⟨fun h => h.2, fun h => ⟨by omega, h⟩⟩

theorem resultFits_v2_iff (hv2 : isV2 hdr hdrSize) (hsize : hdrSize ≤ hdr.length) :
    ResultFits inet hdr hdrSize (some (parseProxyHeaderV2 hdr hdrSize addrs)) ↔
      V2Fits hdr hdrSize := by
  simp only [parseProxyHeaderV2]
  split
  · rename_i hshort
    exact iff_of_true (resultFits_of_neg (by decide)) fun h => absurd hshort (Nat.not_lt.mpr h)
  · rename_i hlen
    have hlen := Nat.not_lt.mp hlen
    split
    · rename_i hcmd
      simp only [takeAddrs]
      split
      · rename_i hfam
        have hnot6 : fam hdr ≠ pp2FamTcp6 := by
          rw [hfam]
          decide
        rw [resultFits_header_iff hv2 hsize hlen, addressReads, if_pos hv2, if_pos ⟨hcmd, hfam⟩,
          inside_iff]
        constructor
        · rintro ⟨-, hinside⟩ - -
          -- The last read is that of the port.
          have hport := hinside (26, 2) (by simp)
          exact ⟨fun _ => by omega, fun h6 => absurd h6 hnot6⟩
        · intro h
          have hcovers := (h hlen hcmd).1 hfam
          refine ⟨.inr ⟨hcmd, .inr (.inl ⟨hfam, hcovers⟩)⟩, ?_⟩
          simp only [List.forall_mem_cons]
          exact ⟨by omega, by omega, by omega, by omega, by simp⟩
      · rename_i hnot4
        split
        · rename_i hfam
          rw [resultFits_header_iff hv2 hsize hlen, addressReads, if_pos hv2,
            if_neg (fun h => hnot4 h.2), if_pos ⟨hcmd, hfam⟩, inside_iff]
          constructor
          · rintro ⟨-, hinside⟩ - -
            have hport := hinside (50, 2) (by simp)
            exact ⟨fun h4 => absurd h4 hnot4, fun _ => by omega⟩
          · intro h
            have hcovers := (h hlen hcmd).2 hfam
            refine ⟨.inr ⟨hcmd, .inr (.inr ⟨hfam, hcovers⟩)⟩, ?_⟩
            simp only [List.forall_mem_cons]
            exact ⟨by omega, by omega, by omega, by omega, by simp⟩
        · rename_i hnot6
          have hfits : V2Fits hdr hdrSize := fun _ _ =>
            ⟨fun h4 => absurd h4 hnot4, fun h6 => absurd h6 hnot6⟩
          split
          · rename_i hfam
            rw [resultFits_header_iff hv2 hsize hlen, addressReads, if_pos hv2,
              if_neg (fun h => hnot4 h.2), if_neg (fun h => hnot6 h.2)]
            exact iff_of_true ⟨.inr ⟨hcmd, .inl hfam⟩, inside_nil _⟩ hfits
          · exact iff_of_true (resultFits_of_neg (by decide)) hfits
    · rename_i hcmd
      have hfits : V2Fits hdr hdrSize := fun _ h => absurd h hcmd
      split
      · rename_i hlocal
        rw [resultFits_header_iff hv2 hsize hlen, addressReads, if_pos hv2,
          if_neg (fun h => hcmd h.1), if_neg (fun h => hcmd h.1)]
        exact iff_of_true ⟨.inl hlocal, inside_nil _⟩ hfits
      · exact iff_of_true (resultFits_of_neg (by decide)) hfits

end Version2

/-! ## Both versions -/

section Both

variable {inet : Inet} {hdr : Bytes} {hdrSize : Nat} {addrs : ProxyAddrs}

/-- Bytes with a line at their head. -/
theorem acceptsOnlyHeaders_line_iff (hsize : hdrSize ≤ hdr.length) (hv2 : ¬isV2 hdr hdrSize)
    (hv1 : isV1 hdr hdrSize) (hline : hasLine hdr hdrSize) :
    AcceptsOnlyHeaders inet hdr hdrSize addrs ↔ V1Fits inet (lineOf hdr hdrSize) := by
  have hresult : parseProxyHeader inet hdr hdrSize addrs =
      parseTokens inet (splitStr (lineOf hdr hdrSize)) ((lineOf hdr hdrSize).length + 2) addrs := by
    rw [parseProxyHeader, if_neg hv2, if_pos hv1, parseProxyHeaderV1, if_neg (not_not.mpr hline)]
  rw [AcceptsOnlyHeaders, hresult, resultFits_v1_iff hsize hv2 hv1 hline]

/-- Bytes with the signature of version 2 at their head. -/
theorem acceptsOnlyHeaders_v2_iff (hsize : hdrSize ≤ hdr.length) (hv2 : isV2 hdr hdrSize) :
    AcceptsOnlyHeaders inet hdr hdrSize addrs ↔ V2Fits hdr hdrSize := by
  rw [AcceptsOnlyHeaders, parseProxyHeader, if_pos hv2, resultFits_v2_iff hv2 hsize]

/-- A line that passes the checks and is not plain is accepted. -/
theorem not_acceptsOnlyHeaders_of_not_plain {word proto srcIp dstIp srcPort dstPort : Bytes}
    (hsize : hdrSize ≤ hdr.length) (hv2 : ¬isV2 hdr hdrSize) (hv1 : isV1 hdr hdrSize)
    (hline : hasLine hdr hdrSize)
    (hsplit : splitStr (lineOf hdr hdrSize) = [word, proto, srcIp, dstIp, srcPort, dstPort])
    (hproto : proto ≠ unknown) (hpass : PassesChecks inet proto srcIp dstIp srcPort dstPort)
    (hplain : ¬PlainLine (lineOf hdr hdrSize) proto srcIp dstIp srcPort dstPort) :
    ¬AcceptsOnlyHeaders inet hdr hdrSize addrs := by
  rw [acceptsOnlyHeaders_line_iff hsize hv2 hv1 hline]
  exact fun h => hplain (h.2 _ _ _ _ _ _ hsplit hproto hpass)

end Both

/-- For which bytes only well-formed headers are accepted: `peeked` is what was peeked at and
`stale` the rest of the buffer. -/
theorem headers_accepted_iff (inet : Inet) (peeked stale : Bytes) (addrs : ProxyAddrs) :
    AcceptsOnlyHeaders inet (peeked ++ stale) peeked.length addrs ↔
      HeaderFits inet (peeked ++ stale) peeked.length := by
  have hsize : peeked.length ≤ (peeked ++ stale).length := by
    rw [List.length_append]
    omega
  unfold HeaderFits
  split
  · rename_i hv2
    exact acceptsOnlyHeaders_v2_iff hsize hv2
  · rename_i hv2
    by_cases hv1 : isV1 (peeked ++ stale) peeked.length
    · by_cases hline : hasLine (peeked ++ stale) peeked.length
      · rw [acceptsOnlyHeaders_line_iff hsize hv2 hv1 hline]
        exact ⟨fun h _ _ => h, fun h => h hv1 hline⟩
      · refine iff_of_true ?_ fun _ h => absurd h hline
        rw [AcceptsOnlyHeaders, parseProxyHeader, if_neg hv2, if_pos hv1, parseProxyHeaderV1,
          if_pos hline]
        exact resultFits_of_neg (by decide)
    · refine iff_of_true ?_ fun h => absurd h hv1
      rw [AcceptsOnlyHeaders, parseProxyHeader, if_neg hv2, if_neg hv1]
      exact resultFits_of_neg (by decide)

/-- The text `10.0.0.7`. -/
def clientText : Bytes := [49, 48, 46, 48, 46, 48, 46, 55]

/-- A line with nothing after `PROXY`; lines with the protocol word `TCP5`, with the addresses `*`
and `0`, with the ports `80x` and 2^32 + 80, and with a space at the end; a header of version 2 for
IPv4 that ends before the addresses. -/
def malformedHeaders : List Bytes :=
  [proxyWord ++ crlf,
    addressLine [84, 67, 80, 53] [97] [98] [49] [50] ++ crlf,
    addressLine tcp4 [42] [48] [49] [50] ++ crlf,
    addressLine tcp4 clientText clientText [56, 48, 120] (decimal (2 ^ 32 + 80)) ++ crlf,
    addressLine tcp4 clientText clientText [49] [50] ++ spaceByte :: crlf,
    proxyHdr pp2FamTcp4 []]

theorem headers_accepted_malformed :
    malformedHeaders.Forall fun peeked =>
      ¬AcceptsOnlyHeaders canonicalInet peeked peeked.length sampleAddrs := by
  simp only [malformedHeaders, List.Forall]
  refine ⟨?_, ?_, ?_, ?_, ?_, ?_⟩
  · rw [acceptsOnlyHeaders_line_iff (Nat.le_refl _) (by decide) (by decide) (by decide)]
    exact fun h => h.1 (by decide)
  · apply not_acceptsOnlyHeaders_of_not_plain (Nat.le_refl _) (by decide) (by decide) (by decide) rfl
      (by decide) <;> decide +kernel
  · apply not_acceptsOnlyHeaders_of_not_plain (Nat.le_refl _) (by decide) (by decide) (by decide) rfl
      (by decide) <;> decide +kernel
  · apply not_acceptsOnlyHeaders_of_not_plain (Nat.le_refl _) (by decide +kernel) (by decide +kernel)
      (by decide +kernel) rfl (by decide) <;> decide +kernel
  · apply not_acceptsOnlyHeaders_of_not_plain (Nat.le_refl _) (by decide) (by decide) (by decide) rfl
      (by decide) <;> decide +kernel
  · rw [acceptsOnlyHeaders_v2_iff (Nat.le_refl _) (by decide)]
    decide

end PhxSql.Proxy
