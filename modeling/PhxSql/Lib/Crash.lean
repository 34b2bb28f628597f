import Mathlib.Data.List.Basic

/-!
# Crashes between and inside writes

An operation that changes a disk by a list of writes can be cut off by a crash. The crash point is a
number `k` of writes that were made in full and a number `t` of units of the next write that
arrived; `WriteModel.torn` says what is left of a write then, and with `t = 0` nothing of it is. A
crash during one list of writes after another is a crash during the first list, or the first list in
full and a crash during the second (`crashed_append_left`, `crashed_append_right`).
-/

set_option autoImplicit false

namespace PhxSql.Lib

universe u v

/-- How a disk is written: a whole write, and a write of which a part arrived. -/
structure WriteModel (D : Type u) (W : Type v) where
  apply : D → W → D
  torn : W → ℕ → W

namespace WriteModel

variable {D : Type u} {W : Type v} (M : WriteModel D W)

/-- All writes, in order. -/
def applyAll (d : D) (ws : List W) : D :=
  ws.foldl M.apply d

/-- The disk a crash leaves after `k` writes and `t` units of the next one. -/
def crashed (d : D) (ws : List W) (k t : ℕ) : D :=
  match ws[k]? with
  | none => M.applyAll d ws
  | some w =>
    let d' := M.applyAll d (ws.take k)
    if t = 0 then d' else M.apply d' (M.torn w t)

@[simp] theorem applyAll_nil (d : D) : M.applyAll d [] = d := rfl

@[simp] theorem applyAll_cons (d : D) (w : W) (ws : List W) :
    M.applyAll d (w :: ws) = M.applyAll (M.apply d w) ws := rfl

theorem applyAll_append (d : D) (ws vs : List W) :
    M.applyAll d (ws ++ vs) = M.applyAll (M.applyAll d ws) vs :=
  List.foldl_append

/-- A crash after all writes. -/
theorem crashed_of_length_le (d : D) {ws : List W} {k : ℕ} (h : ws.length ≤ k) (t : ℕ) :
    M.crashed d ws k t = M.applyAll d ws := by
  rw [crashed, List.getElem?_eq_none h]

theorem crashed_append_left (d : D) {ws : List W} (vs : List W) {k : ℕ} (h : k < ws.length)
    (t : ℕ) : M.crashed d (ws ++ vs) k t = M.crashed d ws k t := by
  rw [crashed, crashed, List.getElem?_append_left h, List.take_append_of_le_length (Nat.le_of_lt h),
    List.getElem?_eq_getElem h]

theorem crashed_append_right (d : D) {ws : List W} (vs : List W) {k : ℕ} (h : ws.length ≤ k)
    (t : ℕ) :
    M.crashed d (ws ++ vs) k t = M.crashed (M.applyAll d ws) vs (k - ws.length) t := by
  rw [crashed, crashed, List.getElem?_append_right h, List.take_append,
    List.take_of_length_le h, applyAll_append, applyAll_append]

end WriteModel

end PhxSql.Lib
