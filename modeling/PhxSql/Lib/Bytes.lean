import Mathlib.Data.List.Lex
import Mathlib.Data.List.TakeWhile
import Mathlib.Data.Nat.Digits.Lemmas

/-!
# Byte strings: order, decimal text, little-endian numbers

Byte strings are lists of `UInt8`. `byteRank` orders them as `std::string` does, by unsigned bytes.
`decimal` is the text of a number without leading zeros and `scanUnsigned` reads one the way
`sscanf` reads an unsigned conversion of a given width. `leBytes` and `leValue` are the
little-endian layout of an integer in memory, `beBytes` and `beValue` the network byte order.
-/

set_option autoImplicit false

namespace PhxSql.Lib

/-! ## Order -/

/-- The numbers a byte string is compared by. -/
def byteRank (bs : List UInt8) : List ℕ :=
  bs.map UInt8.toNat

theorem byteRank_injective : Function.Injective byteRank :=
  List.map_injective_iff.mpr fun _ _ h => UInt8.toNat_inj.mp h

@[simp] theorem byteRank_inj {a b : List UInt8} : byteRank a = byteRank b ↔ a = b :=
  byteRank_injective.eq_iff

@[simp] theorem byteRank_append (a b : List UInt8) : byteRank (a ++ b) = byteRank a ++ byteRank b :=
  List.map_append

@[simp] theorem length_byteRank (a : List UInt8) : (byteRank a).length = a.length :=
  List.length_map _

/-- Lists that begin with parts of one length are compared by these parts first. -/
theorem append_lt_append_iff {α : Type*} [LinearOrder α] {a b : List α} (c d : List α)
    (h : a.length = b.length) : a ++ c < b ++ d ↔ a < b ∨ (a = b ∧ c < d) := by
  induction a generalizing b with
  | nil =>
    rw [List.eq_nil_of_length_eq_zero h.symm]
    simp
  | cons x a ih =>
    cases b with
    | nil => cases h
    | cons y b =>
      have ih := ih (Nat.succ.inj h)
      rw [List.cons_append, List.cons_append, List.cons_lt_cons_iff, List.cons_lt_cons_iff, ih,
        List.cons.injEq]
      tauto

/-- Where two pairs are in the same order both ways, one is of equals if the other is. -/
theorem eq_iff_of_lt_iff {α β : Type*} [LinearOrder α] [LinearOrder β] {a b : α} {c d : β}
    (hlt : a < b ↔ c < d) (hgt : b < a ↔ d < c) : a = b ↔ c = d := by
  rw [← not_iff_not, ← ne_eq, ← ne_eq, ne_iff_lt_or_gt, ne_iff_lt_or_gt]
  exact or_congr hlt hgt

/-! ## Decimal text -/

/-- The byte of a decimal digit. -/
def digitByte (d : ℕ) : UInt8 :=
  UInt8.ofNat (48 + d)

def isDigit (b : UInt8) : Bool :=
  decide (48 ≤ b.toNat ∧ b.toNat ≤ 57)

/-- The text of a number. -/
def decimal (n : ℕ) : List UInt8 :=
  if n = 0 then [digitByte 0] else (Nat.digits 10 n).reverse.map digitByte

/-- The number a row of digits stands for. -/
def digitsValue (bs : List UInt8) : ℕ :=
  bs.foldl (fun v b => (b.toNat - 48) + 10 * v) 0

theorem toNat_digitByte {d : ℕ} (h : d < 10) : (digitByte d).toNat = 48 + d := by
  simp only [digitByte, UInt8.toNat_ofNat']
  omega

theorem isDigit_digitByte {d : ℕ} (h : d < 10) : isDigit (digitByte d) = true := by
  simp only [isDigit, toNat_digitByte h, decide_eq_true_eq]
  omega

theorem isDigit_of_mem_decimal {n : ℕ} {b : UInt8} (h : b ∈ decimal n) : isDigit b = true := by
  unfold decimal at h
  split at h
  · rw [List.mem_singleton.mp h]
    exact isDigit_digitByte (by omega)
  · obtain ⟨d, hd, rfl⟩ := List.mem_map.mp h
    exact isDigit_digitByte (Nat.digits_lt_base (by omega) (List.mem_reverse.mp hd))

theorem not_mem_decimal {b : UInt8} (hb : isDigit b = false) (n : ℕ) : b ∉ decimal n := by
  intro hmem
  rw [isDigit_of_mem_decimal hmem] at hb
  cases hb

theorem decimal_ne_nil (n : ℕ) : decimal n ≠ [] := by
  unfold decimal
  split
  · simp
  · rename_i hn
    simp [Nat.digits_ne_nil_iff_ne_zero, hn]

/-- The text of a number has that number as its value. -/
theorem digitsValue_decimal (n : ℕ) : digitsValue (decimal n) = n := by
  unfold decimal
  split
  · rename_i hn
    rw [hn]
    rfl
  · -- `Nat.digits` has the lowest digit first, so the induction is on the reversed text.
    have hfold : ∀ ds : List ℕ, (∀ d ∈ ds, d < 10) →
        digitsValue (ds.reverse.map digitByte) = Nat.ofDigits 10 ds := by
      intro ds hds
      induction ds with
      | nil => rfl
      | cons d ds ih =>
        have hd := toNat_digitByte (hds d List.mem_cons_self)
        have ih := ih fun d' hd' => hds d' (List.mem_cons_of_mem _ hd')
        simp only [digitsValue, List.reverse_cons, List.map_append, List.map_cons, List.map_nil,
          List.foldl_append, List.foldl_cons, List.foldl_nil, Nat.ofDigits_cons] at ih ⊢
        rw [ih, hd]
        simp
    rw [hfold _ fun d hd => Nat.digits_lt_base (by omega) hd, Nat.ofDigits_digits]

theorem decimal_injective : Function.Injective decimal := by
  intro m n h
  rw [← digitsValue_decimal m, h, digitsValue_decimal]

/-! ## Scanning numbers -/

def isSpace (b : UInt8) : Bool :=
  decide (b = 32 ∨ (9 ≤ b.toNat ∧ b.toNat ≤ 13))

/-- The sign of a number and the text after it. -/
def scanSign : List UInt8 → Bool × List UInt8
  | 45 :: bs => (true, bs)
  | 43 :: bs => (false, bs)
  | bs => (false, bs)

/-- Reads an unsigned number of `w` bits: blanks, a sign, then digits. A number that does not fit
gives the largest one, and a minus sign negates modulo `2 ^ w`. -/
def scanUnsigned (w : ℕ) (bs : List UInt8) : Option ℕ :=
  let signed := scanSign (bs.dropWhile isSpace)
  let digits := signed.2.takeWhile isDigit
  if digits.isEmpty then none
  else if 2 ^ w ≤ digitsValue digits then some (2 ^ w - 1)
  else some (if signed.1 then (2 ^ w - digitsValue digits) % 2 ^ w else digitsValue digits)

theorem takeWhile_isDigit_decimal (n : ℕ) {rest : List UInt8}
    (h : ∀ b, rest.head? = some b → isDigit b = false) :
    (decimal n ++ rest).takeWhile isDigit = decimal n := by
  have hnil : rest.takeWhile isDigit = [] := by
    cases rest with
    | nil => rfl
    | cons b rest => exact List.takeWhile_cons_of_neg (by simp [h b rfl])
  rw [List.takeWhile_append_of_pos fun b hb => isDigit_of_mem_decimal hb, hnil, List.append_nil]

/-- A text that begins with a digit has no blank to skip and no sign. -/
theorem scanSign_digit {b : UInt8} (h : isDigit b = true) (bs : List UInt8) :
    scanSign ((b :: bs).dropWhile isSpace) = (false, b :: bs) := by
  simp only [isDigit, decide_eq_true_eq] at h
  have hspace : isSpace b = false := by
    simp only [isSpace, decide_eq_false_iff_not]
    rintro (rfl | hb)
    · exact absurd h.1 (by decide)
    · omega
  have hminus : b ≠ 45 := by
    rintro rfl
    exact absurd h.1 (by decide)
  have hplus : b ≠ 43 := by
    rintro rfl
    exact absurd h.1 (by decide)
  rw [List.dropWhile_cons_of_neg (by simp [hspace])]
  unfold scanSign
  split
  · rename_i heq
    exact absurd (List.cons.inj heq).1 hminus
  · rename_i heq
    exact absurd (List.cons.inj heq).1 hplus
  · rfl

theorem scanSign_decimal (n : ℕ) (rest : List UInt8) :
    scanSign ((decimal n ++ rest).dropWhile isSpace) = (false, decimal n ++ rest) := by
  cases hd : decimal n with
  | nil => exact absurd hd (decimal_ne_nil n)
  | cons b bs => exact scanSign_digit (isDigit_of_mem_decimal (hd ▸ List.mem_cons_self)) _

/-- Scanning the text of a number that fits gives the number. -/
theorem scanUnsigned_decimal {w n : ℕ} (hn : n < 2 ^ w) {rest : List UInt8}
    (h : ∀ b, rest.head? = some b → isDigit b = false) :
    scanUnsigned w (decimal n ++ rest) = some n := by
  have htake := takeWhile_isDigit_decimal n h
  have hne : (decimal n).isEmpty = false := by simpa using decimal_ne_nil n
  simp only [scanUnsigned, scanSign_decimal, htake, hne, digitsValue_decimal, Bool.false_eq_true,
    if_false, Nat.not_le.mpr hn]

/-- Reads a signed number of `w` bits: blanks, a sign, then digits. A number that does not fit gives
the nearest one, and a text without digits gives 0. -/
def scanSigned (w : ℕ) (bs : List UInt8) : ℤ :=
  let signed := scanSign (bs.dropWhile isSpace)
  let value : ℤ := digitsValue (signed.2.takeWhile isDigit)
  if signed.1 then max (-value) (-2 ^ (w - 1)) else min value (2 ^ (w - 1) - 1)

/-- A row of digits is read as its value if that fits. -/
theorem scanSigned_digits {w : ℕ} {bs : List UInt8} (hne : bs ≠ [])
    (hdigits : ∀ b ∈ bs, isDigit b = true) (hfits : (digitsValue bs : ℤ) ≤ 2 ^ (w - 1) - 1) :
    scanSigned w bs = digitsValue bs := by
  cases bs with
  | nil => exact absurd rfl hne
  | cons b bs =>
    have hsign := scanSign_digit (hdigits b List.mem_cons_self) bs
    have htake := List.takeWhile_eq_self_iff.mpr hdigits
    simp only [scanSigned, hsign, htake, Bool.false_eq_true, if_false, min_eq_left hfits]

theorem length_decimal_le {n k : ℕ} (hk : 0 < k) (h : n < 10 ^ k) : (decimal n).length ≤ k := by
  unfold decimal
  split
  · exact hk
  · rw [List.length_map, List.length_reverse]
    exact (Nat.digits_length_le_iff (by omega) n).mpr h

/-! ## Little-endian numbers -/

/-- The `k` low bytes of a number, lowest first. -/
def leBytes : ℕ → ℕ → List UInt8
  | 0, _ => []
  | k + 1, n => UInt8.ofNat (n % 256) :: leBytes k (n / 256)

/-- The number a row of bytes stands for, lowest first. -/
def leValue : List UInt8 → ℕ
  | [] => 0
  | b :: bs => b.toNat + 256 * leValue bs

@[simp] theorem length_leBytes (k n : ℕ) : (leBytes k n).length = k := by
  induction k generalizing n with
  | zero => rfl
  | succ k ih => simp [leBytes, ih]

theorem leValue_leBytes (k n : ℕ) : leValue (leBytes k n) = n % 256 ^ k := by
  induction k generalizing n with
  | zero => simp [leBytes, leValue, Nat.mod_one]
  | succ k ih =>
    -- `n % 256 ^ (k + 1)` is its low byte and 256 times the rest, which is the induction.
    have hbyte : (UInt8.ofNat (n % 256)).toNat = n % 256 := by
      simp only [UInt8.toNat_ofNat']
      omega
    rw [leBytes, leValue, ih, hbyte, Nat.pow_succ, Nat.mul_comm (256 ^ k), Nat.mod_mul]

theorem leValue_leBytes_of_lt {k n : ℕ} (h : n < 256 ^ k) : leValue (leBytes k n) = n := by
  rw [leValue_leBytes, Nat.mod_eq_of_lt h]

theorem leBytes_leValue (bs : List UInt8) : leBytes bs.length (leValue bs) = bs := by
  induction bs with
  | nil => rfl
  | cons b bs ih =>
    have hb := b.toNat_lt
    have hlow : (b.toNat + 256 * leValue bs) % 256 = b.toNat := by omega
    have hhigh : (b.toNat + 256 * leValue bs) / 256 = leValue bs := by omega
    rw [List.length_cons, leValue, leBytes, hlow, hhigh, ih, UInt8.ofNat_toNat]

theorem leValue_lt (bs : List UInt8) : leValue bs < 256 ^ bs.length := by
  induction bs with
  | nil => exact Nat.one_pos
  | cons b bs ih =>
    have hb := b.toNat_lt
    rw [leValue, List.length_cons, Nat.pow_succ]
    omega

/-! ## Network byte order -/

/-- The `k` low bytes of a number, highest first. -/
def beBytes (k n : ℕ) : List UInt8 :=
  (leBytes k n).reverse

/-- The number a row of bytes stands for, highest first. -/
def beValue (bs : List UInt8) : ℕ :=
  leValue bs.reverse

@[simp] theorem length_beBytes (k n : ℕ) : (beBytes k n).length = k := by
  rw [beBytes, List.length_reverse, length_leBytes]

theorem beValue_beBytes_of_lt {k n : ℕ} (h : n < 256 ^ k) : beValue (beBytes k n) = n := by
  rw [beValue, beBytes, List.reverse_reverse, leValue_leBytes_of_lt h]

theorem beBytes_beValue {k : ℕ} {bs : List UInt8} (h : bs.length = k) :
    beBytes k (beValue bs) = bs := by
  have hle := leBytes_leValue bs.reverse
  rw [List.length_reverse, h] at hle
  rw [beBytes, beValue, hle, List.reverse_reverse]

theorem beValue_lt {k : ℕ} {bs : List UInt8} (h : bs.length = k) : beValue bs < 256 ^ k := by
  have hlt := leValue_lt bs.reverse
  rwa [List.length_reverse, h] at hlt

/-! ## Reading from a buffer -/

/-- The `len` bytes at a position, with zeros past the end. -/
def readAt (bs : List UInt8) (pos len : ℕ) : List UInt8 :=
  ((bs.drop pos).take len).rightpad len 0

@[simp] theorem length_readAt (bs : List UInt8) (pos len : ℕ) : (readAt bs pos len).length = len := by
  simp only [readAt, List.length_rightpad, List.length_take]
  omega

theorem readAt_append {as bs cs : List UInt8} {pos len : ℕ} (hpos : as.length = pos)
    (hlen : bs.length = len) : readAt (as ++ (bs ++ cs)) pos len = bs := by
  subst hpos hlen
  simp [readAt, List.rightpad]

end PhxSql.Lib
