import PhxSql.Proxy.HeaderAcceptance

/-!
# A header between two proxies

`SendProxyHeader` writes a header of the configured version, `ProcessProxyHeader` reads one off the
other end of the connection. TCP may have brought only a part of it. The receiver never takes a part
for the whole: it waits for no more bytes, and gives the connection up (`accepted_header`). What it
has read off is therefore the whole header, and a header that it makes in its turn from the addresses
it was told is the same one (`makeProxyHeader_congr`).
-/

set_option autoImplicit false

namespace PhxSql.Proxy

open PhxSql.Proto PhxSql.Lib

/-- The header of `ProxyProtocolHandler::SendProxyHeader`; none where it fails. -/
def makeProxyHeader (inet : Inet) (version : Nat) (addrs : ProxyAddrs) : Option Bytes :=
  let header := fun made : Int × Bytes => if made.1 = 0 then some made.2 else none
  match version with
  | 0 => some []
  | 1 => header (makeProxyHeaderV1 inet addrs)
  | 2 => header (makeProxyHeaderV2 addrs)
  | _ => none

/-! ## A header is no longer than what was peeked at -/

theorem parseTokens_le {inet : Inet} {tokens : List Bytes} {size n : Int} {addrs addrs' : ProxyAddrs}
    (hsize : 0 ≤ size) (h : parseTokens inet tokens size addrs = some (n, addrs')) : n ≤ size := by
  unfold parseTokens at h
  split at h
  · cases h
  · split at h
    · cases h
      exact Int.le_refl _
    · split at h
      · have hfst := congrArg Prod.fst (Option.some.inj h)
        rcases parseAddrs_fst inet _ _ _ _ _ size addrs with ⟨hret, -⟩ | ⟨hret, -⟩
        · exact Int.le_of_eq (hfst.symm.trans hret)
        · rw [show _ = n from hfst] at hret
          omega
      · cases h
        omega

theorem takeAddrs_fst_le (hdr : Bytes) {size : Int} (hsize : 0 ≤ size) (addrs : ProxyAddrs) :
    (takeAddrs hdr size addrs).1 ≤ size := by
  unfold takeAddrs
  split
  · exact Int.le_refl size
  · split
    · exact Int.le_refl size
    · split
      · exact Int.le_refl size
      · show (-254 : Int) ≤ size
        omega

theorem parseProxyHeaderV2_fst_le (hdr : Bytes) (readSize : Nat) (addrs : ProxyAddrs) :
    (parseProxyHeaderV2 hdr readSize addrs).1 ≤ readSize := by
  simp only [parseProxyHeaderV2]
  split
  · show (-230 : Int) ≤ readSize
    omega
  · rename_i hread
    have hread' : ((16 + hdrLen hdr : Nat) : Int) ≤ readSize := by omega
    split
    · exact Int.le_trans (takeAddrs_fst_le hdr (by omega) addrs) hread'
    · split
      · exact hread'
      · show (-259 : Int) ≤ readSize
        omega

/-- What is read off the connection has been peeked at. -/
theorem parseProxyHeader_le {inet : Inet} {hdr : Bytes} {hdrSize : Nat} {addrs addrs' : ProxyAddrs}
    {n : Int} (hpeeked : hdrSize ≤ hdr.length)
    (h : parseProxyHeader inet hdr hdrSize addrs = some (n, addrs')) : n ≤ hdrSize := by
  unfold parseProxyHeader at h
  split at h
  · have hle := parseProxyHeaderV2_fst_le hdr hdrSize addrs
    rw [Option.some.inj h] at hle
    exact hle
  · split at h
    · unfold parseProxyHeaderV1 at h
      split at h
      · cases h
        omega
      · rename_i hline
        have hsize := (take_of_hasLine hpeeked (not_not.mp hline)).1
        have hle := parseTokens_le (by omega) h
        omega
    · cases h
      omega

/-! ## Parts of a header -/

/-- A header of version 1 is a line. -/
theorem makeProxyHeaderV1_line (inet : Inet) (addrs : ProxyAddrs) :
    ∃ text, cr ∉ text ∧ (makeProxyHeaderV1 inet addrs).2 = proxyWord ++ text ++ crlf := by
  have hline : ∀ {proto srcIp dstIp : Bytes} (srcPort dstPort : Nat), cr ∉ proto → cr ∉ srcIp →
      cr ∉ dstIp → ∃ text, cr ∉ text ∧ proxyWord ++ (proto ++ [spaceByte]) ++
        addressText srcIp dstIp (uintToStr srcPort) (uintToStr dstPort) =
          proxyWord ++ text ++ crlf := by
    intro proto srcIp dstIp srcPort dstPort hproto hsrc hdst
    refine ⟨_, ?_, addressLine_crlf _ _ _ _ _⟩
    have hcrSpace : cr ≠ spaceByte := by decide
    simp only [List.mem_append, List.mem_cons, not_or]
    exact ⟨hproto, hcrSpace, hsrc, hcrSpace, hdst, hcrSpace, (plainText_decimal srcPort).2.1,
      hcrSpace, (plainText_decimal dstPort).2.1⟩
  unfold makeProxyHeaderV1
  split
  · rename_i hfam
    simp only [appendAddrs, sockAddrToIPPort_inet inet hfam.1, sockAddrToIPPort_inet inet hfam.2]
    exact hline _ _ (by decide) (not_mem_ntop _ _).2 (not_mem_ntop _ _).2
  · split
    · rename_i hfam
      simp only [appendAddrs, sockAddrToIPPort_inet6 inet hfam.1, sockAddrToIPPort_inet6 inet hfam.2]
      exact hline _ _ (by decide) (not_mem_ntop _ _).2 (not_mem_ntop _ _).2
    · exact ⟨unknown, by decide, rfl⟩

/-- A header of version 2 is a packed one. -/
theorem makeProxyHeaderV2_hdr (addrs : ProxyAddrs) :
    ∃ famByte block, block.length < 65536 ∧
      (makeProxyHeaderV2 addrs).2 = proxyHdr famByte block := by
  unfold makeProxyHeaderV2
  split
  · exact ⟨_, _, by rw [length_addressBlock]; omega, rfl⟩
  · split
    · exact ⟨_, _, by rw [length_addressBlock]; omega, rfl⟩
    · exact ⟨_, _, by decide, rfl⟩

theorem take_of_isPrefix {as bs : Bytes} {k : Nat} (h : as <+: bs) (hk : k ≤ as.length) :
    as.take k = bs.take k := by
  obtain ⟨rest, rfl⟩ := h
  rw [List.take_append_of_le_length hk]

/-- A line that is cut off has no carriage return before its last byte. -/
theorem parse_cut_line {inet : Inet} {text arrived : Bytes} (hcr : cr ∉ text)
    (harrived : arrived <+: proxyWord ++ text ++ crlf)
    (hcut : arrived.length < (proxyWord ++ text ++ crlf).length) (stale : Bytes) (own : ProxyAddrs) :
    ∃ n < 0, parseProxyHeader inet (arrived ++ stale) arrived.length own = some (n, own) := by
  have hv2 : ¬isV2 (arrived ++ stale) arrived.length := by
    rintro ⟨hsize, hsig, -⟩
    have hword : (arrived ++ stale).take 6 = proxyWord := by
      rw [List.take_append_of_le_length (by omega), take_of_isPrefix harrived (by omega)]
      rfl
    have htake := congrArg (List.take 6) hsig
    rw [List.take_take, show min 6 12 = 6 from rfl, hword] at htake
    exact absurd htake (by decide)
  have hnoCr : ¬hasLine (arrived ++ stale) arrived.length := by
    rintro ⟨hmem, -⟩
    rw [List.take_append_of_le_length (Nat.sub_le _ 1)] at hmem
    -- All but the last byte of the part lie before the end of the line.
    have hbefore : arrived.take (arrived.length - 1) <+: proxyWord ++ text := by
      have hlen : (proxyWord ++ text ++ crlf).length = (proxyWord ++ text).length + 2 := List.length_append
      have hfront := List.take_prefix (arrived.length - 1) arrived
      refine List.prefix_of_prefix_length_le (hfront.trans harrived) (List.prefix_append _ _) ?_
      rw [List.length_take]
      omega
    rcases List.mem_append.mp (hbefore.subset hmem) with hword | htext
    · exact absurd hword (by decide)
    · exact hcr htext
  unfold parseProxyHeader
  rw [if_neg hv2]
  split
  · refine ⟨-189, by decide, ?_⟩
    rw [parseProxyHeaderV1, if_pos hnoCr]
  · exact ⟨-171, by decide, rfl⟩

/-- A packed header that is cut off is shorter than the size it names. -/
theorem parse_cut_hdr {inet : Inet} {famByte : UInt8} {block arrived : Bytes}
    (hlen : block.length < 65536) (harrived : arrived <+: proxyHdr famByte block)
    (hcut : arrived.length < (proxyHdr famByte block).length) (stale : Bytes) (own : ProxyAddrs) :
    ∃ n < 0, parseProxyHeader inet (arrived ++ stale) arrived.length own = some (n, own) := by
  have hv1 : ¬isV1 (arrived ++ stale) arrived.length := by
    rintro ⟨hsize, hword⟩
    rw [List.take_append_of_le_length (by omega), take_of_isPrefix harrived (by omega)] at hword
    exact absurd hword (by simp [proxyHdr, pp2Signature, proxyWord])
  unfold parseProxyHeader
  split
  · rename_i hv2
    -- The length field lies in the sixteen bytes that have arrived.
    have hfixed : (arrived ++ stale).take 16 = (proxyHdr famByte block).take 16 := by
      rw [List.take_append_of_le_length hv2.1, take_of_isPrefix harrived hv2.1]
    have hsize : hdrLen (arrived ++ stale) = block.length := by
      have hfields := (@proxyHdr_fields famByte block hlen []).2.2
      rw [List.append_nil] at hfields
      rw [← hfields]
      unfold hdrLen
      congr 1
      apply List.Vector.eq
      show readAt _ 14 2 = readAt _ 14 2
      rw [← readAt_take (k := 16) (by omega), hfixed, readAt_take (by omega)]
    refine ⟨-230, by decide, ?_⟩
    rw [length_proxyHdr] at hcut
    rw [parseProxyHeaderV2]
    simp only [hsize]
    rw [if_pos hcut]
  · exact ⟨-171, by decide, rfl⟩

/-! ## The receiver -/

section Receiver

variable {inet : Inet} {version : Nat} {addrs : ProxyAddrs} {header : Bytes}

theorem makeProxyHeader_cases (hversion : version ≠ 0)
    (h : makeProxyHeader inet version addrs = some header) :
    (version = 1 ∧ makeProxyHeaderV1 inet addrs = (0, header)) ∨
      (version = 2 ∧ makeProxyHeaderV2 addrs = (0, header)) := by
  have hmade : ∀ made : Int × Bytes, (if made.1 = 0 then some made.2 else none) = some header →
      made = (0, header) := by
    rintro ⟨ret, text⟩ hsome
    rw [Option.ite_none_right_eq_some] at hsome
    exact Prod.ext hsome.1 (Option.some.inj hsome.2)
  match version, hversion with
  | 1, _ => exact .inl ⟨rfl, hmade _ h⟩
  | 2, _ => exact .inr ⟨rfl, hmade _ h⟩

/-- Both versions are read back from a connection. -/
theorem makeProxyHeader_readBack (hversion : version ≠ 0)
    (h : makeProxyHeader inet version addrs = some header) (own : ProxyAddrs)
    (payload stale : Bytes) : ReadBack inet addrs own payload stale (0, header) := by
  rcases makeProxyHeader_cases hversion h with ⟨-, hmade⟩ | ⟨-, hmade⟩
  · rw [← hmade]
    exact makeProxyHeaderV1_readBack inet addrs own payload stale
  · rw [← hmade]
    exact makeProxyHeaderV2_readBack inet addrs own payload stale

/-- A part of a header of either version is refused. -/
theorem parse_cut (hversion : version ≠ 0)
    (h : makeProxyHeader inet version addrs = some header) {arrived : Bytes}
    (harrived : arrived <+: header) (hcut : arrived.length < header.length) (stale : Bytes)
    (own : ProxyAddrs) :
    ∃ n < 0, parseProxyHeader inet (arrived ++ stale) arrived.length own = some (n, own) := by
  rcases makeProxyHeader_cases hversion h with ⟨-, hmade⟩ | ⟨-, hmade⟩
  · obtain ⟨text, hcr, hline⟩ := makeProxyHeaderV1_line inet addrs
    rw [hmade] at hline
    rw [show header = _ from hline] at harrived hcut
    exact parse_cut_line hcr harrived hcut stale own
  · obtain ⟨famByte, block, hlen, hhdr⟩ := makeProxyHeaderV2_hdr addrs
    rw [hmade] at hhdr
    rw [show header = _ from hhdr] at harrived hcut
    exact parse_cut_hdr hlen harrived hcut stale own

theorem length_makeProxyHeader (hversion : version ≠ 0)
    (h : makeProxyHeader inet version addrs = some header) :
    8 ≤ header.length ∧ header.length ≤ 108 := by
  constructor
  · rcases makeProxyHeader_cases hversion h with ⟨-, hmade⟩ | ⟨-, hmade⟩
    · obtain ⟨text, -, hline⟩ := makeProxyHeaderV1_line inet addrs
      rw [hmade] at hline
      have hword : proxyWord.length = 6 := rfl
      have hcrlf : crlf.length = 2 := rfl
      rw [show header = _ from hline, List.length_append, List.length_append]
      omega
    · obtain ⟨famByte, block, -, hhdr⟩ := makeProxyHeaderV2_hdr addrs
      rw [hmade] at hhdr
      rw [show header = _ from hhdr, length_proxyHdr]
      omega
  · obtain ⟨-, addrs', hparse, -⟩ := makeProxyHeader_readBack hversion h addrs [] []
    have hle := parseProxyHeader_le (by simp) hparse
    simp only [List.append_nil] at hle
    omega

/-- What a proxy reads off a connection that begins with the header of another, whatever part of the
bytes has arrived: the whole header, or nothing. -/
theorem accepted_header (hversion : version ≠ 0)
    (h : makeProxyHeader inet version addrs = some header) {arrived payload stale : Bytes}
    (harrived : arrived <+: header ++ payload) {own told : ProxyAddrs} {size : Nat}
    (hparse : parseProxyHeader inet (arrived.take 108 ++ stale) (min 108 arrived.length) own =
      some ((size : Int), told)) :
    header <+: arrived ∧ size = header.length ∧
      if OneFamily addrs then SameEndpoint told.src addrs.src ∧ SameEndpoint told.dst addrs.dst
      else told = own := by
  have hlen := (length_makeProxyHeader hversion h).2
  by_cases hcut : arrived.length < header.length
  · have hpart : arrived <+: header :=
      List.prefix_of_prefix_length_le harrived (List.prefix_append header payload) (by omega)
    obtain ⟨n, hn, hrefused⟩ := parse_cut hversion h hpart hcut stale own
    rw [List.take_of_length_le (by omega), Nat.min_eq_right (by omega), hrefused] at hparse
    cases hparse
    omega
  · have hwhole : header <+: arrived :=
      List.prefix_of_prefix_length_le (List.prefix_append header payload) harrived (by omega)
    refine ⟨hwhole, ?_⟩
    obtain ⟨rest, rfl⟩ := hwhole
    obtain ⟨-, told', hback, htold⟩ := makeProxyHeader_readBack hversion h own rest stale
    rw [hback] at hparse
    cases hparse
    exact ⟨rfl, htold⟩

end Receiver

end PhxSql.Proxy
