import Mathlib.Data.List.Sort

/-!
# Subsequences of a list without repetition

In a list without repetition every element has one place. A list of its elements is a subsequence of
it if each place is larger than the one before, and of two subsequences one is a subsequence of the
other if its elements are.
-/

set_option autoImplicit false

namespace PhxSql.Lib

universe u

variable {α : Type u} [DecidableEq α]

/-- `a` has a smaller place in `l` than `b`. -/
def Before (l : List α) (a b : α) : Prop :=
  l.idxOf a < l.idxOf b

instance (l : List α) : Std.Antisymm (Before l) :=
  ⟨fun _ _ hab hba => absurd hab (Nat.lt_asymm hba)⟩

instance (l : List α) : IsTrans α (Before l) :=
  ⟨fun _ _ _ => Nat.lt_trans⟩

theorem before_getElem {l : List α} (h : l.Nodup) {i j : Nat} (hi : i < l.length)
    (hj : j < l.length) (hij : i < j) : Before l l[i] l[j] := by
  rw [Before, h.idxOf_getElem i hi, h.idxOf_getElem j hj]
  exact hij

theorem pairwise_before {l : List α} (h : l.Nodup) : l.Pairwise (Before l) :=
  List.pairwise_iff_getElem.mpr fun _ _ hi hj hij => before_getElem h hi hj hij

/-- A list that goes through places of `l` in order is a subsequence of `l`. -/
theorem sublist_of_isChain_before {l s : List α} (h : l.Nodup) (hmem : ∀ a ∈ s, a ∈ l)
    (hchain : s.IsChain (Before l)) : s.Sublist l := by
  have hpair : s.Pairwise (Before l) := hchain.pairwise
  have hnodup : s.Nodup := hpair.imp fun {a b} hab heq => by
    rw [Before, heq] at hab
    exact absurd hab (Nat.lt_irrefl _)
  exact List.sublist_of_subperm_of_pairwise (List.subperm_of_subset hnodup hmem) hpair
    (pairwise_before h)

/-- Of two subsequences the one with fewer elements is a subsequence of the other. -/
theorem Sublist.sublist_of_subset {l s t : List α} (h : l.Nodup) (hs : s.Sublist l)
    (ht : t.Sublist l) (hmem : ∀ a ∈ s, a ∈ t) : s.Sublist t := by
  have hpair := pairwise_before h
  exact List.sublist_of_subperm_of_pairwise (List.subperm_of_subset (h.sublist hs) hmem)
    (hpair.sublist hs) (hpair.sublist ht)

end PhxSql.Lib
