import Mathlib.Algebra.Group.Nat.Defs
import Mathlib.Data.List.Basic

/-!
# The protobuf wire format

A message is a row of fields, each with a number and a value that is a base-128 number or a byte
string with its length before it. `encode` writes the fields one after another and `decode` reads
them back. Fixed-width values and groups are not part of it.
-/

set_option autoImplicit false

namespace PhxSql.Lib

/-! ## Numbers -/

/-- A number in groups of seven bits, lowest first, in at most `k + 1` bytes. -/
def varint : ℕ → ℕ → List UInt8
  | 0, n => [UInt8.ofNat n]
  | k + 1, n =>
    if n < 128 then [UInt8.ofNat n] else UInt8.ofNat (n % 128 + 128) :: varint k (n / 128)

/-- Reads a number of at most `k` bytes. -/
def readVarint : ℕ → List UInt8 → Option (ℕ × List UInt8)
  | 0, _ => none
  | _ + 1, [] => none
  | k + 1, b :: bs =>
    if b.toNat < 128 then some (b.toNat, bs)
    else (readVarint k bs).map fun r => (b.toNat - 128 + 128 * r.1, r.2)

theorem readVarint_varint (k : ℕ) :
    ∀ (n : ℕ), n < 128 ^ (k + 1) → ∀ rest : List UInt8,
      readVarint (k + 1) (varint k n ++ rest) = some (n, rest) := by
  -- A number below 128 is one byte; of a larger one the last group is read first.
  have hsmall : ∀ (n : ℕ), n < 128 → ∀ (k : ℕ) (rest : List UInt8),
      readVarint (k + 1) ([UInt8.ofNat n] ++ rest) = some (n, rest) := by
    intro n hn k rest
    have hbyte : (UInt8.ofNat n).toNat = n := by
      simp only [UInt8.toNat_ofNat']
      omega
    simp [readVarint, hbyte, hn]
  induction k with
  | zero =>
    intro n hn rest
    apply hsmall
    simpa using hn
  | succ k ih =>
    intro n hn rest
    rw [varint]
    split
    · rename_i hlt
      exact hsmall n hlt _ rest
    · have hbyte : (UInt8.ofNat (n % 128 + 128)).toNat = n % 128 + 128 := by
        simp only [UInt8.toNat_ofNat']
        omega
      have hdiv : n / 128 < 128 ^ (k + 1) := by
        rw [Nat.div_lt_iff_lt_mul (by decide)]
        rwa [Nat.pow_succ] at hn
      rw [List.cons_append, readVarint, hbyte, if_neg (by omega), ih _ hdiv, Option.map_some]
      congr 2
      omega

/-! ## Fields -/

inductive WireValue
  | varint (n : ℕ)
  | bytes (b : List UInt8)
  deriving DecidableEq, Repr

structure WireField where
  num : ℕ
  value : WireValue
  deriving DecidableEq, Repr

/-- A field number has 29 bits, a number 64, and a length 31. -/
def WireField.valid (f : WireField) : Bool :=
  decide (f.num < 2 ^ 29) &&
    match f.value with
    | .varint n => decide (n < 2 ^ 64)
    | .bytes b => decide (b.length < 2 ^ 31)

def encodeField (f : WireField) : List UInt8 :=
  match f.value with
  | .varint n => varint 9 (f.num * 8) ++ varint 9 n
  | .bytes b => varint 9 (f.num * 8 + 2) ++ (varint 9 b.length ++ b)

def decodeField (bs : List UInt8) : Option (WireField × List UInt8) :=
  match readVarint 10 bs with
  | none => none
  | some (tag, bs) =>
    match readVarint 10 bs with
    | none => none
    | some (n, bs) =>
      if tag % 8 = 0 then some ({ num := tag / 8, value := .varint (n % 2 ^ 64) }, bs)
      else if tag % 8 = 2 ∧ n ≤ bs.length then
        some ({ num := tag / 8, value := .bytes (bs.take n) }, bs.drop n)
      else none

def encode (fs : List WireField) : List UInt8 :=
  fs.flatMap encodeField

/-- Reads at most `fuel` fields up to the end. -/
def decodeFields : ℕ → List UInt8 → Option (List WireField)
  | _, [] => some []
  | 0, _ :: _ => none
  | fuel + 1, b :: bs =>
    match decodeField (b :: bs) with
    | none => none
    | some (f, rest) => (decodeFields fuel rest).map fun fs => f :: fs

def decode (bs : List UInt8) : Option (List WireField) :=
  decodeFields bs.length bs

theorem decodeField_encodeField {f : WireField} (h : f.valid = true) (rest : List UInt8) :
    decodeField (encodeField f ++ rest) = some (f, rest) := by
  obtain ⟨num, value⟩ := f
  have hread : ∀ n, n < 2 ^ 64 → ∀ rest,
      readVarint 10 (varint 9 n ++ rest) = some (n, rest) := by
    intro n hn rest
    apply readVarint_varint
    exact Nat.lt_of_lt_of_le hn (by decide)
  cases value with
  | varint n =>
    simp only [WireField.valid, Bool.and_eq_true, decide_eq_true_eq] at h
    have htag : num * 8 % 8 = 0 := by omega
    have hnum : num * 8 / 8 = num := by omega
    simp only [decodeField, encodeField, List.append_assoc, hread (num * 8) (by omega),
      hread n h.2, htag, hnum, if_true, Nat.mod_eq_of_lt h.2]
  | bytes b =>
    simp only [WireField.valid, Bool.and_eq_true, decide_eq_true_eq] at h
    have htag : (num * 8 + 2) % 8 = 2 := by omega
    have hnum : (num * 8 + 2) / 8 = num := by omega
    simp [decodeField, encodeField, List.append_assoc, hread (num * 8 + 2) (by omega),
      hread b.length (by omega), htag, hnum]

theorem encodeField_ne_nil (f : WireField) : encodeField f ≠ [] := by
  have hvarint : ∀ k n, varint k n ≠ [] := by
    intro k n
    cases k with
    | zero => simp [varint]
    | succ k =>
      rw [varint]
      split
      · simp
      · simp
  unfold encodeField
  split
  · simp [hvarint]
  · simp [hvarint]

/-- Decoding what was encoded gives the fields back. -/
theorem decode_encode {fs : List WireField} (h : ∀ f ∈ fs, f.valid = true) :
    decode (encode fs) = some fs := by
  have hfuel : ∀ fuel, (encode fs).length ≤ fuel → decodeFields fuel (encode fs) = some fs := by
    induction fs with
    | nil => intro fuel _; cases fuel <;> rfl
    | cons f fs ih =>
      intro fuel hlen
      have hfield := decodeField_encodeField (h f List.mem_cons_self) (encode fs)
      have ih := ih fun f' hf' => h f' (List.mem_cons_of_mem _ hf')
      cases hf : encodeField f with
      | nil => exact absurd hf (encodeField_ne_nil f)
      | cons b bs =>
        have henc : encode (f :: fs) = b :: (bs ++ encode fs) := by
          simp [encode, hf]
        rw [henc] at hlen ⊢
        rw [hf, List.cons_append] at hfield
        cases fuel with
        | zero => simp at hlen
        | succ fuel =>
          simp only [List.length_cons, List.length_append] at hlen
          rw [decodeFields, hfield]
          simp [ih fuel (by omega)]
  exact hfuel _ (Nat.le_refl _)

/-! ## Reading fields by number -/

def uintFields (num : ℕ) (fs : List WireField) : List ℕ :=
  fs.filterMap fun f =>
    match f.value with
    | .varint n => if f.num = num then some n else none
    | .bytes _ => none

/-- The byte strings with this field number. -/
def bytesFields (num : ℕ) (fs : List WireField) : List (List UInt8) :=
  fs.filterMap fun f =>
    match f.value with
    | .varint _ => none
    | .bytes b => if f.num = num then some b else none

/-- A number or byte string that is given several times has its last value. -/
def uintField (num : ℕ) (fs : List WireField) : Option ℕ :=
  (uintFields num fs).getLast?

def bytesField (num : ℕ) (fs : List WireField) : Option (List UInt8) :=
  (bytesFields num fs).getLast?

/-! ## Optional fields -/

/-- A number that is written unless it has its default value. -/
def optUint (num n : ℕ) : List WireField :=
  if n = 0 then [] else [{ num := num, value := .varint n }]

def optBytes (num : ℕ) (b : List UInt8) : List WireField :=
  if b = [] then [] else [{ num := num, value := .bytes b }]

section Fields

variable {num num' n : ℕ} {b : List UInt8} {fs fs' : List WireField}

@[simp] theorem uintFields_append :
    uintFields num (fs ++ fs') = uintFields num fs ++ uintFields num fs' := by
  simp [uintFields]

@[simp] theorem bytesFields_append :
    bytesFields num (fs ++ fs') = bytesFields num fs ++ bytesFields num fs' := by
  simp [bytesFields]

@[simp] theorem uintFields_nil : uintFields num [] = [] := rfl

@[simp] theorem bytesFields_nil : bytesFields num [] = [] := rfl

@[simp] theorem uintFields_cons_varint :
    uintFields num ({ num := num', value := .varint n } :: fs) =
      (if num' = num then [n] else []) ++ uintFields num fs := by
  by_cases h : num' = num
  · simp [uintFields, h]
  · simp [uintFields, h]

@[simp] theorem uintFields_cons_bytes :
    uintFields num ({ num := num', value := .bytes b } :: fs) = uintFields num fs := by
  simp [uintFields]

@[simp] theorem bytesFields_cons_varint :
    bytesFields num ({ num := num', value := .varint n } :: fs) = bytesFields num fs := by
  simp [bytesFields]

@[simp] theorem bytesFields_cons_bytes :
    bytesFields num ({ num := num', value := .bytes b } :: fs) =
      (if num' = num then [b] else []) ++ bytesFields num fs := by
  by_cases h : num' = num
  · simp [bytesFields, h]
  · simp [bytesFields, h]

@[simp] theorem uintFields_optUint :
    uintFields num (optUint num' n) = if num' = num ∧ n ≠ 0 then [n] else [] := by
  unfold optUint
  by_cases h : n = 0
  · simp [h]
  · simp [h]

@[simp] theorem bytesFields_optUint : bytesFields num (optUint num' n) = [] := by
  unfold optUint
  split
  · rfl
  · simp

@[simp] theorem uintFields_optBytes : uintFields num (optBytes num' b) = [] := by
  unfold optBytes
  split
  · rfl
  · simp

@[simp] theorem bytesFields_optBytes :
    bytesFields num (optBytes num' b) = if num' = num ∧ b ≠ [] then [b] else [] := by
  unfold optBytes
  by_cases h : b = []
  · simp [h]
  · simp [h]

/-- An optional number is its default if it was not written. -/
theorem getLast?_optional_uint : ((if n = 0 then [] else [n]).getLast?).getD 0 = n := by
  by_cases h : n = 0
  · simp [h]
  · simp [h]

theorem getLast?_optional_bytes : ((if b = [] then [] else [b]).getLast?).getD [] = b := by
  by_cases h : b = []
  · simp [h]
  · simp [h]

end Fields

end PhxSql.Lib
