import Mathlib.Data.Vector.Basic
import PhxSql.Gtid.GtidHandler
import PhxSql.Lib.Tokens

/-!
# Addresses as text

The proxy turns addresses into text with `inet_ntop` and text into addresses with `inet_pton`.
`AddrText` is the pair for one family with the facts that are used of it; `Inet` is the pair of
both families. `canonicalInet` is one that accepts only what it prints: IPv4 addresses in their
dotted form, IPv6 addresses as eight groups of four digits, and `::` for the address of zeros.
-/

set_option autoImplicit false

namespace PhxSql.Proxy

open PhxSql.Proto PhxSql.Lib PhxSql.Gtid

/-- A field of `n` bytes. -/
abbrev Block (n : Nat) := List.Vector UInt8 n

def zeros (n : Nat) : Block n :=
  List.Vector.replicate n 0

def readBlock (n : Nat) (bs : Bytes) (pos : Nat) : Block n :=
  ⟨readAt bs pos n, length_readAt bs pos n⟩

def spaceByte : UInt8 := 32

def cr : UInt8 := 13

def lf : UInt8 := 10

/-- A character that ends neither a C string nor a field of a line. -/
def PlainByte (b : UInt8) : Prop :=
  b ≠ 0 ∧ b ≠ spaceByte ∧ b ≠ cr

instance (b : UInt8) : Decidable (PlainByte b) :=
  inferInstanceAs (Decidable (_ ∧ _))

/-- `inet_ntop` and `inet_pton` for addresses of `n` bytes: the text of an address has at most
`bound` characters, that of the address of zeros is `anyText`, and every text that is accepted has
the character `mark` (the dot or the colon). -/
structure AddrText (n bound : Nat) (anyText : Bytes) (mark : UInt8) where
  ntop : Block n → Bytes
  pton : Bytes → Option (Block n)
  pton_ntop : ∀ a, pton (ntop a) = some a
  length_ntop : ∀ a, (ntop a).length ≤ bound
  ntop_plain : ∀ a, ∀ b ∈ ntop a, PlainByte b
  ntop_any : ntop (zeros n) = anyText
  mark_mem : ∀ ip a, pton ip = some a → mark ∈ ip

/-- The text `0.0.0.0`. -/
def anyText4 : Bytes := [48, 46, 48, 46, 48, 46, 48]

/-- The text `::`. -/
def anyText6 : Bytes := [58, 58]

/-- The C library's address texts. -/
structure Inet where
  v4 : AddrText 4 15 anyText4 46
  v6 : AddrText 16 39 anyText6 58

/-! ## Texts that are printed -/

/-- Only what is printed is accepted. -/
def AddrText.ofDecode {n bound : Nat} {anyText : Bytes} {mark : UInt8} (ntop : Block n → Bytes)
    (decode : Bytes → Block n) (decode_ntop : ∀ a, decode (ntop a) = a)
    (length_ntop : ∀ a, (ntop a).length ≤ bound) (ntop_plain : ∀ a, ∀ b ∈ ntop a, PlainByte b)
    (ntop_any : ntop (zeros n) = anyText) (mark_mem : ∀ a, mark ∈ ntop a) :
    AddrText n bound anyText mark where
  ntop := ntop
  pton ip := if ntop (decode ip) = ip then some (decode ip) else none
  pton_ntop a := by rw [decode_ntop, if_pos rfl]
  length_ntop := length_ntop
  ntop_plain := ntop_plain
  ntop_any := ntop_any
  mark_mem ip a h := by
    split at h
    · rename_i hip
      rw [← hip]
      exact mark_mem _
    · cases h

/-- The text of a list of bytes as numbers with dots between them. -/
def dotted (bs : Bytes) : Bytes :=
  [46].intercalate (bs.map fun b => decimal b.toNat)

/-- The numbers of a text. -/
def undotted (ip : Bytes) : Bytes :=
  (tokens 46 ip).map fun t => UInt8.ofNat (digitsValue t)

theorem dotted_singleton (b : UInt8) : dotted [b] = decimal b.toNat :=
  List.intercalate_singleton

theorem dotted_cons_cons (b c : UInt8) (bs : Bytes) :
    dotted (b :: c :: bs) = decimal b.toNat ++ 46 :: dotted (c :: bs) := by
  rw [dotted, List.map_cons, List.intercalate_cons_of_ne_nil (by simp)]
  simp [dotted]

theorem tokens_dotted {bs : Bytes} (h : bs ≠ []) :
    tokens 46 (dotted bs) = bs.map fun b => decimal b.toNat := by
  induction bs with
  | nil => exact absurd rfl h
  | cons b bs ih =>
    have hdot : (46 : UInt8) ∉ decimal b.toNat := not_mem_decimal rfl _
    cases bs with
    | nil =>
      rw [dotted_singleton, tokens_of_not_mem hdot (decimal_ne_nil _)]
      rfl
    | cons c bs =>
      rw [dotted_cons_cons, tokens_append_cons hdot, ih (List.cons_ne_nil _ _)]
      rfl

theorem length_dotted_lt {bs : Bytes} (h : bs ≠ []) : (dotted bs).length < 4 * bs.length := by
  induction bs with
  | nil => exact absurd rfl h
  | cons b bs ih =>
    -- Three digits and a dot for each byte, and no dot at the end.
    have hb := b.toNat_lt
    have hlen := @length_decimal_le b.toNat 3 (by omega) (by omega)
    cases bs with
    | nil =>
      rw [dotted_singleton, List.length_singleton]
      omega
    | cons c bs =>
      have ih := ih (List.cons_ne_nil _ _)
      rw [dotted_cons_cons, List.length_append, List.length_cons, List.length_cons]
      omega

theorem plainByte_of_isDigit {b : UInt8} (h : isDigit b = true) : PlainByte b := by
  refine ⟨?_, ?_, ?_⟩ <;>
  · rintro rfl
    exact absurd h (by decide)

theorem plainByte_dotted {bs : Bytes} {b : UInt8} (h : b ∈ dotted bs) : PlainByte b := by
  induction bs with
  | nil => exact absurd h List.not_mem_nil
  | cons c bs ih =>
    cases bs with
    | nil =>
      rw [dotted_singleton] at h
      exact plainByte_of_isDigit (isDigit_of_mem_decimal h)
    | cons d bs =>
      rw [dotted_cons_cons, List.mem_append, List.mem_cons] at h
      rcases h with h | rfl | h
      · exact plainByte_of_isDigit (isDigit_of_mem_decimal h)
      · decide
      · exact ih h

theorem undotted_dotted {bs : Bytes} (h : bs ≠ []) : undotted (dotted bs) = bs := by
  rw [undotted, tokens_dotted h, List.map_map]
  refine (List.map_congr_left fun b _ => ?_).trans (List.map_id bs)
  simp [digitsValue_decimal]

/-- Groups of two bytes in hexadecimal digits, each after a colon. -/
def hexGroups : Bytes → Bytes
  | x :: y :: bs => 58 :: (hexPair x ++ (hexPair y ++ hexGroups bs))
  | _ => []

/-- The value of a hexadecimal digit. -/
def hexValue (c : UInt8) : Nat :=
  (List.range 16).findIdx fun n => byteToHex n == c

/-- The bytes of a text of hexadecimal digits; colons are passed over. -/
def unhexText : Bytes → Bytes
  | hi :: lo :: text =>
    if hi = 58 then unhexText (lo :: text)
    else UInt8.ofNat (16 * hexValue hi + hexValue lo) :: unhexText text
  | _ => []

theorem byteToHex_ne_colon : ∀ n < 16, byteToHex n ≠ 58 := by
  decide

theorem hexValue_byteToHex : ∀ n < 16, hexValue (byteToHex n) = n := by
  decide

theorem unhexText_hexPair (b : UInt8) (text : Bytes) :
    unhexText (hexPair b ++ text) = b :: unhexText text := by
  have hb := b.toNat_lt
  have hhi := byteToHex_ne_colon (b.toNat / 16) (by omega)
  have hvalue : 16 * (b.toNat / 16) + b.toNat % 16 = b.toNat := Nat.div_add_mod _ _
  rw [hexPair, List.cons_append, List.singleton_append, unhexText, if_neg hhi,
    hexValue_byteToHex _ (by omega), hexValue_byteToHex _ (by omega), hvalue, UInt8.ofNat_toNat]

theorem unhexText_colon (b : UInt8) (text : Bytes) :
    unhexText (58 :: (hexPair b ++ text)) = unhexText (hexPair b ++ text) := by
  rw [hexPair, List.cons_append, unhexText, if_pos rfl]

theorem unhexText_hexGroups : ∀ {k : Nat} {bs : Bytes}, bs.length = 2 * k →
    unhexText (hexGroups bs) = bs
  | 0, bs, h => by
    rw [List.length_eq_zero_iff.mp h]
    rfl
  | k + 1, [], h => by simp at h
  | k + 1, [_], h => by simp only [List.length_singleton] at h; omega
  | k + 1, x :: y :: bs, h => by
    have ih := @unhexText_hexGroups k bs (by simp only [List.length_cons] at h; omega)
    rw [hexGroups, unhexText_colon, unhexText_hexPair, unhexText_hexPair, ih]

theorem length_hexGroups : ∀ {k : Nat} {bs : Bytes}, bs.length = 2 * k →
    (hexGroups bs).length = 5 * k
  | 0, bs, h => by
    rw [List.length_eq_zero_iff.mp h]
    rfl
  | k + 1, [], h => by simp at h
  | k + 1, [_], h => by simp only [List.length_singleton] at h; omega
  | k + 1, x :: y :: bs, h => by
    have ih := @length_hexGroups k bs (by simp only [List.length_cons] at h; omega)
    simp only [hexGroups, hexPair, List.length_cons, List.length_append, List.length_nil, ih]
    omega

theorem plainByte_byteToHex : ∀ n < 16, PlainByte (byteToHex n) := by
  decide

theorem plainByte_hexPair {x b : UInt8} (h : b ∈ hexPair x) : PlainByte b := by
  have hx := x.toNat_lt
  simp only [hexPair, List.mem_cons, List.not_mem_nil, or_false] at h
  rcases h with rfl | rfl
  · exact plainByte_byteToHex _ (by omega)
  · exact plainByte_byteToHex _ (by omega)

theorem plainByte_hexGroups : ∀ {bs : Bytes} {b : UInt8}, b ∈ hexGroups bs → PlainByte b
  | [], _, h => absurd h List.not_mem_nil
  | [_], _, h => absurd h List.not_mem_nil
  | x :: y :: bs, b, h => by
    simp only [hexGroups, List.mem_cons, List.mem_append] at h
    rcases h with rfl | h | h | h
    · decide
    · exact plainByte_hexPair h
    · exact plainByte_hexPair h
    · exact plainByte_hexGroups h

/-- The second group stands after a colon. -/
theorem colon_mem_tail_hexGroups : ∀ {bs : Bytes}, 4 ≤ bs.length → 58 ∈ (hexGroups bs).tail
  | [], h | [_], h | [_, _], h | [_, _, _], h => absurd h (by simp)
  | _ :: _ :: _ :: _ :: _, _ => by
    rw [hexGroups, List.tail_cons, hexGroups]
    exact List.mem_append_right _ (List.mem_append_right _ List.mem_cons_self)

/-! ## An instance -/

theorem readBlock_toList {n : Nat} (a : Block n) : readBlock n a.toList 0 = a := by
  apply List.Vector.eq
  have hread := @readAt_append [] a.toList [] 0 n rfl a.toList_length
  rwa [List.nil_append, List.append_nil] at hread

theorem toList_eq_cons_cons {n : Nat} (a : Block (n + 2)) :
    ∃ b c bs, a.toList = b :: c :: bs :=
  ⟨a.head, a.tail.head, a.tail.tail.toList, by
    rw [← List.Vector.toList_cons, ← List.Vector.toList_cons, List.Vector.cons_head_tail,
      List.Vector.cons_head_tail]⟩

theorem toList_ne_nil {n : Nat} (a : Block (n + 2)) : a.toList ≠ [] := by
  obtain ⟨b, c, bs, h⟩ := toList_eq_cons_cons a
  rw [h]
  exact List.cons_ne_nil _ _

/-- IPv4 addresses in their dotted form. -/
def canonical4 : AddrText 4 15 anyText4 46 :=
  .ofDecode (fun a => dotted a.toList) (fun ip => readBlock 4 (undotted ip) 0)
    (fun a => by rw [undotted_dotted (toList_ne_nil a), readBlock_toList])
    (fun a => by
      have hlen := length_dotted_lt (toList_ne_nil a)
      rw [List.Vector.toList_length] at hlen
      omega)
    (fun _ _ h => plainByte_dotted h) (by decide +kernel)
    (fun a => by
      obtain ⟨b, c, bs, h⟩ := toList_eq_cons_cons a
      rw [h, dotted_cons_cons]
      exact List.mem_append_right _ List.mem_cons_self)

/-- The text of an IPv6 address. -/
def hexAddr (a : Block 16) : Bytes :=
  if a = zeros 16 then anyText6 else (hexGroups a.toList).tail

def unhexAddr (ip : Bytes) : Block 16 :=
  if ip = anyText6 then zeros 16 else readBlock 16 (unhexText ip) 0

theorem length_hexGroups_toList (a : Block 16) : (hexGroups a.toList).length = 40 :=
  @length_hexGroups 8 _ a.toList_length

theorem unhexAddr_hexAddr (a : Block 16) : unhexAddr (hexAddr a) = a := by
  unfold hexAddr
  split
  · rename_i hzero
    rw [hzero]
    rfl
  · have hlen := length_hexGroups_toList a
    -- Eight groups are longer than `::`, so the two forms do not meet.
    have hne : (hexGroups a.toList).tail ≠ anyText6 := by
      intro heq
      have := congrArg List.length heq
      rw [List.length_tail, hlen] at this
      exact absurd this (by decide)
    obtain ⟨x, y, bs, htext⟩ := toList_eq_cons_cons a
    have hgroups := @unhexText_hexGroups 8 _ a.toList_length
    have htail : unhexText (hexGroups a.toList).tail = unhexText (hexGroups a.toList) := by
      rw [htext, hexGroups, unhexText_colon, List.tail_cons]
    rw [unhexAddr, if_neg hne, htail, hgroups, readBlock_toList]

/-- IPv6 addresses as eight groups, and `::`. -/
def canonical6 : AddrText 16 39 anyText6 58 :=
  .ofDecode hexAddr unhexAddr unhexAddr_hexAddr
    (fun a => by
      unfold hexAddr
      split
      · decide
      · rw [List.length_tail, length_hexGroups_toList])
    (fun a b h => by
      unfold hexAddr at h
      split at h
      · exact (by decide +kernel : ∀ b ∈ anyText6, PlainByte b) b h
      · exact plainByte_hexGroups (List.mem_of_mem_tail h))
    (if_pos rfl)
    (fun a => by
      unfold hexAddr
      split
      · decide
      · exact colon_mem_tail_hexGroups (by rw [List.Vector.toList_length]; omega))

/-- Texts that are accepted only as they are printed. -/
def canonicalInet : Inet :=
  ⟨canonical4, canonical6⟩

end PhxSql.Proxy
