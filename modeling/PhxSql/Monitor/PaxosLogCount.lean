import PhxSql.Store.EventStorage

/-!
# How much of the paxos log is kept

`CheckCheckPointFiles` lets the paxos library keep three times as many instances as lie between the
oldest event file and the last event. The number goes through four functions: the instance id of the
oldest file is returned as an `int`, the interval is computed in 64 bits without a sign, returned as
an `int` again, and multiplied in 64 bits without a sign. A conversion to `int` keeps the low 32
bits, and one back to 64 bits extends the sign.

The count is exact if and only if the interval is below `2 ^ 31` and bit 31 of the oldest id is not
set, apart from ids at the very end of the 64-bit range and from an empty interval
(`holdPaxosLogCount_exact_iff`).
-/

set_option autoImplicit false

namespace PhxSql.Store

open PhxSql.Proto PhxSql.Lib

/-! ## Conversions -/

/-- An unsigned number as an `int`. -/
def toInt32 (n : Nat) : Int :=
  if n % 2 ^ 32 < 2 ^ 31 then (n % 2 ^ 32 : Nat) else (n % 2 ^ 32 : Nat) - 2 ^ 32

/-- A signed number as a `uint64_t`. -/
def toUInt64 (i : Int) : Nat :=
  (i % 2 ^ 64).toNat

/-- The sign of the low 32 bits is extended to 64 bits. -/
theorem toUInt64_toInt32 (n : Nat) :
    toUInt64 (toInt32 n) =
      if n % 2 ^ 32 < 2 ^ 31 then n % 2 ^ 32 else 2 ^ 64 - 2 ^ 32 + n % 2 ^ 32 := by
  have hlow : n % 2 ^ 32 < 2 ^ 32 := by omega
  rw [toInt32, toUInt64]
  generalize n % 2 ^ 32 = r at hlow ⊢
  split
  · omega
  · omega

theorem toUInt64_toInt32_zero : toUInt64 (toInt32 0) = 0 := by decide

/-! ## The functions -/

/-- `StorageFileManager::GetOldestInstanceIDofFile`. -/
def getOldestInstanceIDofFile (m : StorageFileManager) : Int :=
  match m.fileList.keys.head? with
  | none => 0
  | some fileName => toInt32 (getFileInstanceID fileName)

/-- `EventStorage::GetCurrentInstanceInterval`. -/
def EventStorage.getCurrentInstanceInterval (s : EventStorage) : Nat :=
  let lastInstanceId := s.lastInstanceID
  let oldestInstanceId := toUInt64 (getOldestInstanceIDofFile s.manager)
  if lastInstanceId < oldestInstanceId then 0 else lastInstanceId - oldestInstanceId

/-- `CheckPointManager::GetCurrentInstanceInterval`. -/
def CheckPointManager.getCurrentInstanceInterval (s : EventStorage) : Int :=
  toInt32 s.getCurrentInstanceInterval

end PhxSql.Store

namespace PhxSql.Monitor

open PhxSql.Proto PhxSql.Lib PhxSql.Store

/-- `AgentMonitor::CheckCheckPointFiles`: the number it passes to `SetHoldPaxosLogCount`. -/
def checkCheckPointFiles (s : EventStorage) : Nat :=
  let currentInstanceIdInterval := toUInt64 (CheckPointManager.getCurrentInstanceInterval s)
  currentInstanceIdInterval * 3 % 2 ^ 64

/-! ## When the count is exact -/

/-- A number by its low 32 bits and the others. -/
theorem exists_low_bits (n : Nat) :
    ∃ q r, r < 2 ^ 32 ∧ n = 2 ^ 32 * q + r ∧ (2 ^ 32 * q + r) % 2 ^ 32 = r :=
  ⟨n / 2 ^ 32, n % 2 ^ 32, by omega, by omega, by omega⟩

/-- Three times a number that was converted to `int` and back is three times the number if and only
if the conversion keeps it. -/
theorem mul_three_eq_iff {interval : Nat} {n : Nat} (hmod : interval % 2 ^ 32 = n % 2 ^ 32)
    (hfits : 3 * n < 2 ^ 64) :
    toUInt64 (toInt32 interval) * 3 % 2 ^ 64 = 3 * n ↔ n < 2 ^ 31 := by
  obtain ⟨q, r, hr, rfl, hlow⟩ := exists_low_bits n
  rw [toUInt64_toInt32, hmod, hlow]
  clear hmod hlow
  split
  · have hmul : r * 3 % 2 ^ 64 = r * 3 := by omega
    rw [hmul]
    omega
  · -- `2 ^ 64` is not divisible by 3, so the product is none of the expected ones.
    have hmul : (2 ^ 64 - 2 ^ 32 + r) * 3 % 2 ^ 64 = 2 ^ 64 - 3 * 2 ^ 32 + 3 * r := by omega
    rw [hmul]
    omega

/-- The interval for an oldest id with the low bits `r`, whose sign is extended. -/
theorem getCurrentInstanceInterval_eq {s : EventStorage} {fileName : Bytes} {q r : Nat}
    (holdest : s.manager.fileList.keys.head? = some fileName)
    (hid : getFileInstanceID fileName = 2 ^ 32 * q + r) (hr : r < 2 ^ 32) :
    s.getCurrentInstanceInterval =
      if r < 2 ^ 31 then s.lastInstanceID - r
      else s.lastInstanceID - (2 ^ 64 - 2 ^ 32 + r) := by
  have hlow : (2 ^ 32 * q + r) % 2 ^ 32 = r := by omega
  -- The test for an interval below zero makes the difference a truncated one.
  have hsub : ∀ L O : Nat, (if L < O then 0 else L - O) = L - O := by
    intro L O
    split
    · omega
    · rfl
  have hsigned : toUInt64 (getOldestInstanceIDofFile s.manager) =
      if r < 2 ^ 31 then r else 2 ^ 64 - 2 ^ 32 + r := by
    simp only [getOldestInstanceIDofFile, holdest]
    rw [toUInt64_toInt32, hid, hlow]
  simp only [EventStorage.getCurrentInstanceInterval, hsigned, hsub]
  split
  · rfl
  · rfl

/-- The retention count is exact if and only if the interval fits in an `int`, and so does the id of
the oldest file: bit 31 of it is not set, or all bits from bit 31 on are. An empty interval gives 0
in any case. -/
theorem holdPaxosLogCount_exact_iff (s : EventStorage) (fileName : Bytes)
    (holdest : s.manager.fileList.keys.head? = some fileName) (hlast : s.lastInstanceID < 2 ^ 64)
    (hle : getFileInstanceID fileName ≤ s.lastInstanceID)
    (hfits : 3 * (s.lastInstanceID - getFileInstanceID fileName) < 2 ^ 64) :
    checkCheckPointFiles s = 3 * (s.lastInstanceID - getFileInstanceID fileName) ↔
      s.lastInstanceID = getFileInstanceID fileName ∨
      (s.lastInstanceID - getFileInstanceID fileName < 2 ^ 31 ∧
        (getFileInstanceID fileName % 2 ^ 32 < 2 ^ 31 ∨
          2 ^ 64 - 2 ^ 31 ≤ getFileInstanceID fileName)) := by
  obtain ⟨q, r, hr, hid, hlow⟩ := exists_low_bits (getFileInstanceID fileName)
  have hinterval := getCurrentInstanceInterval_eq holdest hid hr
  rw [checkCheckPointFiles, CheckPointManager.getCurrentInstanceInterval, hinterval]
  rw [hid] at hle hfits ⊢
  rw [hlow]
  generalize s.lastInstanceID = L at hlast hle hfits ⊢
  clear hinterval holdest hid hlow
  split
  · -- The oldest id kept its low bits only, which is all that the next conversion asks for.
    have hmod : (L - r) % 2 ^ 32 = (L - (2 ^ 32 * q + r)) % 2 ^ 32 := by omega
    rw [mul_three_eq_iff hmod hfits]
    omega
  · by_cases hbefore : L < 2 ^ 64 - 2 ^ 32 + r
    · -- The oldest id became larger than the last one, and the interval is taken for empty.
      rw [Nat.sub_eq_zero_of_le hbefore.le, toUInt64_toInt32_zero, Nat.zero_mul, Nat.zero_mod]
      omega
    · have hmod : (L - (2 ^ 64 - 2 ^ 32 + r)) % 2 ^ 32 = (L - (2 ^ 32 * q + r)) % 2 ^ 32 := by
        omega
      rw [mul_three_eq_iff hmod hfits]
      omega

/-- A store with one file and a last event. -/
def storeBetween (oldest last : Nat) : EventStorage where
  manager := { fileList := SortedMap.empty.insert (genFileName oldest) () }
  uuidHandler := { newestInfo := { instanceId := last } }

/-- Ids above `2 ^ 32` do no harm as long as bit 31 of the oldest one is not set. -/
theorem holdPaxosLogCount_exact_long :
    checkCheckPointFiles (storeBetween (2 ^ 32 + 5) (2 ^ 32 + 2 ^ 31 + 4)) = 3 * (2 ^ 31 - 1) := by
  have hid : getFileInstanceID (genFileName (2 ^ 32 + 5)) = 2 ^ 32 + 5 :=
    getFileInstanceID_genFileName (by decide)
  have hexact := holdPaxosLogCount_exact_iff (storeBetween (2 ^ 32 + 5) (2 ^ 32 + 2 ^ 31 + 4))
    (genFileName (2 ^ 32 + 5)) rfl (by decide) (by rw [hid]; decide) (by rw [hid]; decide)
  rw [hid] at hexact
  exact hexact.mpr (.inr (by decide))

/-- One instance after the file `2 ^ 31`, no paxos log is to be kept; with an oldest file 0, the
number of instances turns negative at `2 ^ 31`. -/
theorem holdPaxosLogCount_wrong :
    checkCheckPointFiles (storeBetween (2 ^ 31) (2 ^ 31 + 1)) = 0 ∧
    0 ≠ 3 * ((2 ^ 31 + 1) - 2 ^ 31) ∧
    checkCheckPointFiles (storeBetween 0 (2 ^ 31)) = 2 ^ 64 - 3 * 2 ^ 31 ∧
    2 ^ 64 - 3 * 2 ^ 31 ≠ 3 * (2 ^ 31 - 0) := by
  decide +kernel

end PhxSql.Monitor
