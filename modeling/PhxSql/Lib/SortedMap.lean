import Mathlib.Order.Lex
import Mathlib.Data.Prod.Lex
import Mathlib.Data.List.Sort
import Mathlib.Data.List.Induction

/-!
# Ordered maps keyed through a rank

A finite map whose keys are compared through a `rank` into a linear order: two keys of one rank are
the same key to the map, as with a C++ `std::map` or a key-value store that takes a comparator. The
entries are a list in strictly increasing rank, so every operation has its meaning in terms of
membership in that list (`mem_insert`, `mem_erase`, `find?_eq_some_iff`, `lowerBound_eq_some_iff`),
and two maps with the same entries are equal (`SortedMap.ext_mem`).
-/

set_option autoImplicit false

namespace PhxSql.Lib

universe u v w

variable {κ : Type u} {ν : Type v} {ρ : Type w} [LinearOrder ρ]

/-- A finite map with its entries in increasing rank. -/
structure SortedMap (κ : Type u) (ν : Type v) {ρ : Type w} [LinearOrder ρ] (rank : κ → ρ) where
  entries : List (κ × ν)
  sorted : entries.Pairwise fun a b => rank a.1 < rank b.1

namespace SortedMap

variable {rank : κ → ρ}

theorem ext_entries {m m' : SortedMap κ ν rank} (h : m.entries = m'.entries) : m = m' := by
  cases m
  cases m'
  cases h
  rfl

/-! ## Operations -/

def empty : SortedMap κ ν rank where
  entries := []
  sorted := .nil

/-- The entry stored for a key. -/
def findPair? (m : SortedMap κ ν rank) (k : κ) : Option (κ × ν) :=
  m.entries.find? fun e => decide (rank e.1 = rank k)

/-- The value stored for a key. -/
def find? (m : SortedMap κ ν rank) (k : κ) : Option ν :=
  (m.findPair? k).map Prod.snd

def contains (m : SortedMap κ ν rank) (k : κ) : Bool :=
  (m.findPair? k).isSome

/-- The keys in increasing rank. -/
def keys (m : SortedMap κ ν rank) : List κ :=
  m.entries.map Prod.fst

/-- Stores a value, replacing the entry of the same rank if there is one. -/
def insert (m : SortedMap κ ν rank) (k : κ) (x : ν) : SortedMap κ ν rank where
  entries := m.entries.filter (fun e => decide (rank e.1 < rank k)) ++
    (k, x) :: m.entries.filter (fun e => decide (rank k < rank e.1))
  sorted := by
    refine List.pairwise_append.mpr ⟨m.sorted.filter _, ?_, ?_⟩
    · refine List.pairwise_cons.mpr ⟨fun e he => ?_, m.sorted.filter _⟩
      simpa using (List.mem_filter.mp he).2
    · intro a ha b hb
      have hak : rank a.1 < rank k := by simpa using (List.mem_filter.mp ha).2
      rcases List.mem_cons.mp hb with rfl | hb
      · exact hak
      · have hkb : rank k < rank b.1 := by simpa using (List.mem_filter.mp hb).2
        exact hak.trans hkb

/-- Stores a value only if there is no entry of the same rank. -/
def insertNew (m : SortedMap κ ν rank) (k : κ) (x : ν) : SortedMap κ ν rank :=
  if m.contains k then m else m.insert k x

def erase (m : SortedMap κ ν rank) (k : κ) : SortedMap κ ν rank where
  entries := m.entries.filter fun e => decide (rank e.1 ≠ rank k)
  sorted := m.sorted.filter _

/-- The entries whose keys pass a test. -/
def filterKeys (m : SortedMap κ ν rank) (p : κ → Bool) : SortedMap κ ν rank where
  entries := m.entries.filter fun e => p e.1
  sorted := m.sorted.filter _

/-- The first entry whose rank is not below that of the key. -/
def lowerBound (m : SortedMap κ ν rank) (k : κ) : Option (κ × ν) :=
  m.entries.find? fun e => decide (rank k ≤ rank e.1)

/-! ## Entries -/

/-- A rank occurs once. -/
theorem eq_of_mem_of_rank_eq (m : SortedMap κ ν rank) {a b : κ × ν} (ha : a ∈ m.entries)
    (hb : b ∈ m.entries) (h : rank a.1 = rank b.1) : a = b := by
  obtain ⟨l, hl⟩ := m
  simp only at ha hb
  induction l with
  | nil => cases ha
  | cons x l ih =>
    obtain ⟨hx, hl⟩ := List.pairwise_cons.mp hl
    rcases List.mem_cons.mp ha with rfl | ha'
    · rcases List.mem_cons.mp hb with rfl | hb'
      · rfl
      · exact absurd h (hx b hb').ne
    · rcases List.mem_cons.mp hb with rfl | hb'
      · exact absurd h.symm (hx a ha').ne
      · exact ih hl ha' hb'

/-- Two maps with the same entries are equal. -/
theorem ext_mem {m m' : SortedMap κ ν rank} (h : ∀ e, e ∈ m.entries ↔ e ∈ m'.entries) :
    m = m' := by
  have hnodup : ∀ m : SortedMap κ ν rank, m.entries.Nodup := fun m =>
    m.sorted.imp fun hab heq => by
      rw [heq] at hab
      exact lt_irrefl _ hab
  have hperm := (List.perm_ext_iff_of_nodup (hnodup m) (hnodup m')).mpr h
  exact ext_entries (hperm.eq_of_pairwise
    (fun a b _ _ hab hba => absurd hab hba.asymm) m.sorted m'.sorted)

@[simp] theorem entries_empty : (empty : SortedMap κ ν rank).entries = [] := rfl

theorem mem_insert {m : SortedMap κ ν rank} {k : κ} {x : ν} {e : κ × ν} :
    e ∈ (m.insert k x).entries ↔ e = (k, x) ∨ (e ∈ m.entries ∧ rank e.1 ≠ rank k) := by
  simp only [insert, List.mem_append, List.mem_cons, List.mem_filter, decide_eq_true_eq]
  constructor
  · rintro (⟨hm, hlt⟩ | rfl | ⟨hm, hlt⟩)
    · exact .inr ⟨hm, hlt.ne⟩
    · exact .inl rfl
    · exact .inr ⟨hm, hlt.ne'⟩
  · rintro (rfl | ⟨hm, hne⟩)
    · exact .inr (.inl rfl)
    · rcases lt_or_gt_of_ne hne with hlt | hgt
      · exact .inl ⟨hm, hlt⟩
      · exact .inr (.inr ⟨hm, hgt⟩)

/-- Storing again what is stored changes nothing. -/
theorem insert_of_mem {m : SortedMap κ ν rank} {k : κ} {x : ν} (h : (k, x) ∈ m.entries) :
    m.insert k x = m := by
  apply ext_mem
  intro e
  rw [mem_insert]
  constructor
  · rintro (rfl | ⟨he, -⟩)
    · exact h
    · exact he
  · intro he
    by_cases hrank : rank e.1 = rank k
    · exact .inl (m.eq_of_mem_of_rank_eq he h hrank)
    · exact .inr ⟨he, hrank⟩

/-- The last of two values that are stored under a key stays. -/
theorem insert_insert (m : SortedMap κ ν rank) (k : κ) (x y : ν) :
    (m.insert k x).insert k y = m.insert k y := by
  apply ext_mem
  intro e
  simp only [mem_insert]
  constructor
  · rintro (rfl | ⟨rfl | ⟨he, hne⟩, hne'⟩)
    · exact .inl rfl
    · exact absurd rfl hne'
    · exact .inr ⟨he, hne⟩
  · rintro (rfl | ⟨he, hne⟩)
    · exact .inl rfl
    · exact .inr ⟨.inr ⟨he, hne⟩, hne⟩

/-- An entry whose rank is above all others comes last. -/
theorem entries_insert_of_lt {m : SortedMap κ ν rank} {k : κ} (x : ν)
    (h : ∀ e ∈ m.entries, rank e.1 < rank k) :
    (m.insert k x).entries = m.entries ++ [(k, x)] := by
  have hbelow : m.entries.filter (fun e => decide (rank e.1 < rank k)) = m.entries :=
    List.filter_eq_self.mpr fun e he => decide_eq_true (h e he)
  have habove : m.entries.filter (fun e => decide (rank k < rank e.1)) = [] := by
    rw [List.filter_eq_nil_iff]
    intro e he
    simpa using (h e he).le
  simp only [insert, hbelow, habove]

/-- Storing the entries of a map again, one after the other, gives the map. -/
theorem foldl_insert_entries (m : SortedMap κ ν rank) :
    m.entries.foldl (fun m e => m.insert e.1 e.2) empty = m := by
  have hparts : ∀ l : List (κ × ν), l.Pairwise (fun a b => rank a.1 < rank b.1) →
      (l.foldl (fun m e => m.insert e.1 e.2) (empty : SortedMap κ ν rank)).entries = l := by
    intro l hl
    induction l using List.reverseRecOn with
    | nil => rfl
    | append_singleton l e ih =>
      obtain ⟨hbefore, -, hlast⟩ := List.pairwise_append.mp hl
      have ih := ih hbefore
      rw [List.foldl_append, List.foldl_cons, List.foldl_nil, entries_insert_of_lt, ih]
      intro e' he'
      rw [ih] at he'
      exact hlast e' he' e (List.mem_singleton_self e)
  exact ext_entries (hparts m.entries m.sorted)

/-- The keys are a list in increasing rank with the same members. -/
theorem keys_eq_of_mem {m : SortedMap κ ν rank} {l : List κ}
    (hl : l.Pairwise fun a b => rank a < rank b) (h : ∀ k, k ∈ m.keys ↔ k ∈ l) : m.keys = l := by
  have hm : m.keys.Pairwise fun a b => rank a < rank b := List.pairwise_map.mpr m.sorted
  have hnodup : ∀ {l : List κ}, l.Pairwise (fun a b => rank a < rank b) → l.Nodup := fun hl =>
    hl.imp fun hab heq => by
      rw [heq] at hab
      exact lt_irrefl _ hab
  have hperm := (List.perm_ext_iff_of_nodup (hnodup hm) (hnodup hl)).mpr h
  exact hperm.eq_of_pairwise (fun a b _ _ hab hba => absurd hab hba.asymm) hm hl

theorem mem_erase {m : SortedMap κ ν rank} {k : κ} {e : κ × ν} :
    e ∈ (m.erase k).entries ↔ e ∈ m.entries ∧ rank e.1 ≠ rank k := by
  simp only [erase, List.mem_filter, decide_eq_true_eq]

theorem mem_filterKeys {m : SortedMap κ ν rank} {p : κ → Bool} {e : κ × ν} :
    e ∈ (m.filterKeys p).entries ↔ e ∈ m.entries ∧ p e.1 = true :=
  List.mem_filter

/-! ## Lookups -/

theorem findPair?_eq_some_iff {m : SortedMap κ ν rank} {k : κ} {e : κ × ν} :
    m.findPair? k = some e ↔ e ∈ m.entries ∧ rank e.1 = rank k := by
  constructor
  · intro h
    exact ⟨List.mem_of_find?_eq_some h, by simpa using List.find?_some h⟩
  · rintro ⟨hmem, hrank⟩
    cases hf : m.findPair? k with
    | none =>
      have hnot := List.find?_eq_none.mp hf e hmem
      simp [hrank] at hnot
    | some e' =>
      have hmem' := List.mem_of_find?_eq_some hf
      have hrank' : rank e'.1 = rank k := by simpa using List.find?_some hf
      rw [m.eq_of_mem_of_rank_eq hmem' hmem (hrank'.trans hrank.symm)]

theorem findPair?_eq_none_iff {m : SortedMap κ ν rank} {k : κ} :
    m.findPair? k = none ↔ ∀ e ∈ m.entries, rank e.1 ≠ rank k := by
  simp [findPair?, List.find?_eq_none]

theorem find?_eq_some_iff {m : SortedMap κ ν rank} {k : κ} {x : ν} :
    m.find? k = some x ↔ ∃ k', (k', x) ∈ m.entries ∧ rank k' = rank k := by
  rw [find?, Option.map_eq_some_iff]
  constructor
  · rintro ⟨⟨k', x'⟩, he, rfl⟩
    exact ⟨k', findPair?_eq_some_iff.mp he⟩
  · rintro ⟨k', hmem, hrank⟩
    exact ⟨(k', x), findPair?_eq_some_iff.mpr ⟨hmem, hrank⟩, rfl⟩

theorem find?_eq_none_iff {m : SortedMap κ ν rank} {k : κ} :
    m.find? k = none ↔ ∀ e ∈ m.entries, rank e.1 ≠ rank k := by
  rw [find?, Option.map_eq_none_iff, findPair?_eq_none_iff]

@[simp] theorem find?_empty (k : κ) : (empty : SortedMap κ ν rank).find? k = none := rfl

/-- A key that passes a test on its rank is found as before. -/
theorem find?_filterKeys {m : SortedMap κ ν rank} {p : κ → Bool} {k : κ}
    (hp : ∀ k', rank k' = rank k → p k' = p k) :
    (m.filterKeys p).find? k = if p k then m.find? k else none := by
  apply Option.ext
  intro x
  rw [find?_eq_some_iff]
  by_cases hk : p k
  · rw [if_pos hk, find?_eq_some_iff]
    refine exists_congr fun k' => ⟨fun h => ⟨(mem_filterKeys.mp h.1).1, h.2⟩, fun h => ?_⟩
    exact ⟨mem_filterKeys.mpr ⟨h.1, (hp k' h.2).trans hk⟩, h.2⟩
  · rw [if_neg hk]
    refine ⟨fun ⟨k', hmem, hrank⟩ => absurd ?_ hk, fun h => by cases h⟩
    rw [← hp k' hrank]
    exact (mem_filterKeys.mp hmem).2

theorem find?_insert_of_eq {m : SortedMap κ ν rank} {k k' : κ} {x : ν} (h : rank k' = rank k) :
    (m.insert k x).find? k' = some x :=
  find?_eq_some_iff.mpr ⟨k, mem_insert.mpr (.inl rfl), h.symm⟩

@[simp] theorem find?_insert_self (m : SortedMap κ ν rank) (k : κ) (x : ν) :
    (m.insert k x).find? k = some x :=
  find?_insert_of_eq rfl

theorem find?_insert_of_ne {m : SortedMap κ ν rank} {k k' : κ} {x : ν} (h : rank k' ≠ rank k) :
    (m.insert k x).find? k' = m.find? k' := by
  ext y
  simp only [find?_eq_some_iff, mem_insert, Prod.mk.injEq]
  constructor
  · rintro ⟨k'', ⟨rfl, -⟩ | ⟨hm, -⟩, hrank⟩
    · exact absurd hrank.symm h
    · exact ⟨k'', hm, hrank⟩
  · rintro ⟨k'', hm, hrank⟩
    exact ⟨k'', .inr ⟨hm, hrank ▸ h⟩, hrank⟩

theorem find?_erase_of_eq {m : SortedMap κ ν rank} {k k' : κ} (h : rank k' = rank k) :
    (m.erase k).find? k' = none := by
  rw [find?_eq_none_iff]
  intro e he
  rw [h]
  exact (mem_erase.mp he).2

theorem find?_erase_of_ne {m : SortedMap κ ν rank} {k k' : κ} (h : rank k' ≠ rank k) :
    (m.erase k).find? k' = m.find? k' := by
  ext y
  simp only [find?_eq_some_iff, mem_erase]
  constructor
  · rintro ⟨k'', ⟨hm, -⟩, hrank⟩
    exact ⟨k'', hm, hrank⟩
  · rintro ⟨k'', hm, hrank⟩
    exact ⟨k'', ⟨hm, hrank ▸ h⟩, hrank⟩

theorem contains_iff {m : SortedMap κ ν rank} {k : κ} :
    m.contains k = true ↔ ∃ e ∈ m.entries, rank e.1 = rank k := by
  simp [contains, findPair?, List.find?_isSome]

theorem mem_insertNew {m : SortedMap κ ν rank} {k : κ} {x : ν} {e : κ × ν} :
    e ∈ (m.insertNew k x).entries ↔ e ∈ m.entries ∨ (e = (k, x) ∧ m.contains k = false) := by
  unfold insertNew
  cases hk : m.contains k with
  | true => simp
  | false =>
    have hne : ∀ e ∈ m.entries, rank e.1 ≠ rank k := by
      intro e he heq
      rw [contains_iff.mpr ⟨e, he, heq⟩] at hk
      cases hk
    rw [if_neg Bool.false_ne_true, mem_insert]
    constructor
    · rintro (rfl | ⟨he, -⟩)
      · exact .inr ⟨rfl, rfl⟩
      · exact .inl he
    · rintro (he | ⟨rfl, -⟩)
      · exact .inr ⟨he, hne e he⟩
      · exact .inl rfl

/-- The first entry at or after a key: it is in the map, and nothing between it and the key is. -/
theorem lowerBound_eq_some_iff {m : SortedMap κ ν rank} {k : κ} {e : κ × ν} :
    m.lowerBound k = some e ↔ e ∈ m.entries ∧ rank k ≤ rank e.1 ∧
      ∀ e' ∈ m.entries, rank k ≤ rank e'.1 → rank e.1 ≤ rank e'.1 := by
  obtain ⟨l, hl⟩ := m
  simp only [lowerBound]
  induction l with
  | nil => simp
  | cons x l ih =>
    obtain ⟨hx, hl⟩ := List.pairwise_cons.mp hl
    rw [List.find?_cons]
    by_cases hk : rank k ≤ rank x.1
    · -- The first entry is not below the key, and the entries are in order.
      simp only [hk, decide_true, Option.some.injEq]
      constructor
      · rintro rfl
        refine ⟨List.mem_cons_self, hk, fun e' he' _ => ?_⟩
        rcases List.mem_cons.mp he' with rfl | he'
        · exact le_rfl
        · exact (hx e' he').le
      · rintro ⟨hmem, -, hmin⟩
        rcases List.mem_cons.mp hmem with rfl | hmem
        · rfl
        · exact absurd (hmin x List.mem_cons_self hk) (not_le.mpr (hx e hmem))
    · simp only [hk, decide_false]
      rw [ih hl]
      constructor
      · rintro ⟨hmem, hle, hmin⟩
        refine ⟨List.mem_cons_of_mem _ hmem, hle, fun e' he' hle' => ?_⟩
        rcases List.mem_cons.mp he' with rfl | he'
        · exact absurd hle' hk
        · exact hmin e' he' hle'
      · rintro ⟨hmem, hle, hmin⟩
        rcases List.mem_cons.mp hmem with rfl | hmem
        · exact absurd hle hk
        · exact ⟨hmem, hle, fun e' he' => hmin e' (List.mem_cons_of_mem _ he')⟩

theorem lowerBound_eq_none_iff {m : SortedMap κ ν rank} {k : κ} :
    m.lowerBound k = none ↔ ∀ e ∈ m.entries, rank e.1 < rank k := by
  simp [lowerBound, List.find?_eq_none]

end SortedMap

end PhxSql.Lib
