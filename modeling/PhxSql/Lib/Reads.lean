import PhxSql.Lib.Bytes

/-!
# Reads of a buffer

A read is given by the position of its first byte and the number of its bytes. `Inside n` says of a
list of reads that every byte that is read lies in the first `n` bytes; the lemmas reduce it, read
by read, to inequalities. Reads through a pointer into a buffer are those of the part, shifted.
`AgreeOn` says that two buffers have the same bytes at the places of a list of reads: a result that
two such buffers always share was computed from these reads only.
-/

set_option autoImplicit false

namespace PhxSql.Lib

/-- Every byte that is read is one of the first `n`. -/
def Inside (n : ℕ) (reads : List (ℕ × ℕ)) : Prop :=
  ∀ r ∈ reads, ∀ i, r.1 ≤ i → i < r.1 + r.2 → i < n

/-- The reads through a pointer to position `k`. -/
def shiftReads (k : ℕ) (reads : List (ℕ × ℕ)) : List (ℕ × ℕ) :=
  reads.map fun r => (k + r.1, r.2)

@[simp] theorem inside_nil (n : ℕ) : Inside n [] :=
  fun _ hr => absurd hr List.not_mem_nil

/-- A read that is not empty is inside if its end is. -/
theorem inside_cons {n pos len : ℕ} {reads : List (ℕ × ℕ)} (hlen : 0 < len) :
    Inside n ((pos, len) :: reads) ↔ pos + len ≤ n ∧ Inside n reads := by
  constructor
  · intro h
    refine ⟨?_, fun r hr => h r (List.mem_cons_of_mem _ hr)⟩
    have hlast := h (pos, len) List.mem_cons_self (pos + len - 1) (by omega) (by omega)
    omega
  · rintro ⟨hend, hrest⟩ r hr
    rcases List.mem_cons.mp hr with rfl | hr
    · intro i _ hi
      exact Nat.lt_of_lt_of_le hi hend
    · exact hrest r hr

@[simp] theorem inside_append {n : ℕ} {reads reads' : List (ℕ × ℕ)} :
    Inside n (reads ++ reads') ↔ Inside n reads ∧ Inside n reads' := by
  simp only [Inside, List.forall_mem_append]

/-- Reads through a pointer are inside if they are inside the part it points to. -/
theorem inside_shiftReads {n k : ℕ} (hk : k ≤ n) (reads : List (ℕ × ℕ)) :
    Inside n (shiftReads k reads) ↔ Inside (n - k) reads := by
  constructor
  · intro h r hr i hlo hhi
    have hlt := h (k + r.1, r.2) (List.mem_map.mpr ⟨r, hr, rfl⟩) (k + i) (by simp only; omega)
      (by simp only; omega)
    omega
  · intro h r hr i hlo hhi
    obtain ⟨r', hr', rfl⟩ := List.mem_map.mp hr
    simp only at hlo hhi
    have hlt := h r' hr' (i - k) (by omega) (by omega)
    omega

theorem inside_iff (n : ℕ) (reads : List (ℕ × ℕ)) :
    Inside n reads ↔ ∀ r ∈ reads, r.2 = 0 ∨ r.1 + r.2 ≤ n := by
  constructor
  · intro h r hr
    rcases Nat.eq_zero_or_pos r.2 with hzero | hpos
    · exact .inl hzero
    · have hlast := h r hr (r.1 + r.2 - 1) (by omega) (by omega)
      exact .inr (by omega)
  · intro h r hr i hlo hhi
    have hr' := h r hr
    omega

instance (n : ℕ) (reads : List (ℕ × ℕ)) : Decidable (Inside n reads) :=
  decidable_of_iff _ (inside_iff n reads).symm

/-- Two buffers have the same bytes where they are read. -/
def AgreeOn (reads : List (ℕ × ℕ)) (bs bs' : List UInt8) : Prop :=
  ∀ r ∈ reads, readAt bs r.1 r.2 = readAt bs' r.1 r.2

@[simp] theorem agreeOn_nil (bs bs' : List UInt8) : AgreeOn [] bs bs' :=
  fun _ hr => absurd hr List.not_mem_nil

theorem agreeOn_cons {pos len : ℕ} {reads : List (ℕ × ℕ)} {bs bs' : List UInt8} :
    AgreeOn ((pos, len) :: reads) bs bs' ↔
      readAt bs pos len = readAt bs' pos len ∧ AgreeOn reads bs bs' := by
  simp only [AgreeOn, List.forall_mem_cons]

theorem agreeOn_append {reads reads' : List (ℕ × ℕ)} {bs bs' : List UInt8} :
    AgreeOn (reads ++ reads') bs bs' ↔ AgreeOn reads bs bs' ∧ AgreeOn reads' bs bs' := by
  simp only [AgreeOn, List.forall_mem_append]

theorem readAt_drop (bs : List UInt8) (k pos len : ℕ) :
    readAt (bs.drop k) pos len = readAt bs (k + pos) len := by
  rw [readAt, List.drop_drop, readAt]

theorem AgreeOn.drop {k : ℕ} {reads : List (ℕ × ℕ)} {bs bs' : List UInt8}
    (h : AgreeOn (shiftReads k reads) bs bs') : AgreeOn reads (bs.drop k) (bs'.drop k) := by
  intro r hr
  rw [readAt_drop, readAt_drop]
  exact h (k + r.1, r.2) (List.mem_map.mpr ⟨r, hr, rfl⟩)

end PhxSql.Lib
