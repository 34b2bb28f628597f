import Mathlib.Data.List.Basic

/-!
# Splitting at a separator

`tokens` cuts a list at every occurrence of a separator. Two separators in a row give an empty
token; a separator at the end gives none. Tokens without separators are found again in what they
are joined to, and the tokens of a list, joined, are the list, up to a separator at its end.
-/

set_option autoImplicit false

namespace PhxSql.Lib

variable {α : Type*} [DecidableEq α]

/-- The tokens of a list; `token` is the part of the current token already read. -/
def tokensLoop (sep : α) : List α → List α → List (List α)
  | [], token => if token.isEmpty then [] else [token]
  | x :: xs, token =>
    if x = sep then token :: tokensLoop sep xs [] else tokensLoop sep xs (token ++ [x])

def tokens (sep : α) (xs : List α) : List (List α) :=
  tokensLoop sep xs []

theorem tokensLoop_append {sep : α} {xs : List α} (h : sep ∉ xs) (rest token : List α) :
    tokensLoop sep (xs ++ rest) token = tokensLoop sep rest (token ++ xs) := by
  induction xs generalizing token with
  | nil => rw [List.nil_append, List.append_nil]
  | cons x xs ih =>
    obtain ⟨hx, hxs⟩ := not_or.mp (List.mem_cons.not.mp h)
    rw [List.cons_append, tokensLoop, if_neg (Ne.symm hx), ih hxs, List.append_assoc,
      List.singleton_append]

/-- A token before a separator. -/
theorem tokens_append_cons {sep : α} {xs : List α} (h : sep ∉ xs) (rest : List α) :
    tokens sep (xs ++ sep :: rest) = xs :: tokens sep rest := by
  rw [tokens, tokensLoop_append h, tokensLoop, if_pos rfl, List.nil_append, tokens]

/-- The last token. -/
theorem tokens_of_not_mem {sep : α} {xs : List α} (h : sep ∉ xs) (hne : xs ≠ []) :
    tokens sep xs = [xs] := by
  have happend := tokensLoop_append h [] []
  rw [List.append_nil, List.nil_append] at happend
  rw [tokens, happend, tokensLoop, if_neg (by simpa using hne)]

theorem sep_not_mem_of_mem_tokensLoop {sep : α} {xs token : List α} (h : sep ∉ token) :
    ∀ t ∈ tokensLoop sep xs token, sep ∉ t := by
  induction xs generalizing token with
  | nil =>
    intro t ht
    rw [tokensLoop] at ht
    split at ht
    · exact absurd ht List.not_mem_nil
    · rwa [List.mem_singleton.mp ht]
  | cons x xs ih =>
    intro t ht
    rw [tokensLoop] at ht
    split at ht
    · rcases List.mem_cons.mp ht with rfl | ht
      · exact h
      · exact ih List.not_mem_nil t ht
    · rename_i hx
      refine ih ?_ t ht
      rw [List.mem_append, List.mem_singleton, not_or]
      exact ⟨h, Ne.symm hx⟩

/-- No token has a separator. -/
theorem sep_not_mem_of_mem_tokens {sep : α} {xs t : List α} (ht : t ∈ tokens sep xs) : sep ∉ t :=
  sep_not_mem_of_mem_tokensLoop List.not_mem_nil t ht

theorem tokensLoop_ne_nil {sep : α} {xs token : List α} (h : xs ≠ [] ∨ token ≠ []) :
    tokensLoop sep xs token ≠ [] := by
  induction xs generalizing token with
  | nil =>
    rw [tokensLoop, if_neg (by simpa using h)]
    exact List.cons_ne_nil _ _
  | cons x xs ih =>
    rw [tokensLoop]
    split
    · exact List.cons_ne_nil _ _
    · exact ih (.inr (by simp))

theorem intercalate_tokensLoop {sep : α} {xs token : List α} (h : xs ≠ [] ∨ token ≠ []) :
    token ++ xs =
      [sep].intercalate (tokensLoop sep xs token) ++ if xs.getLast? = some sep then [sep] else [] := by
  induction xs generalizing token with
  | nil =>
    rw [tokensLoop, if_neg (by simpa using h)]
    simp
  | cons x xs ih =>
    rw [tokensLoop]
    split
    · rename_i hx
      subst hx
      cases xs with
      | nil => simp [tokensLoop]
      | cons y ys =>
        -- The rest has a token of its own, so that a separator stands between it and this one.
        have hne : tokensLoop x (y :: ys) [] ≠ [] := tokensLoop_ne_nil (.inl (List.cons_ne_nil _ _))
        have ih := @ih [] (.inl (List.cons_ne_nil _ _))
        rw [List.nil_append] at ih
        rw [List.intercalate_cons_of_ne_nil hne, List.getLast?_cons_cons, List.append_assoc,
          List.append_assoc, ← ih]
        rfl
    · rename_i hx
      have ih := @ih (token ++ [x]) (.inr (by simp))
      rw [List.append_assoc, List.singleton_append] at ih
      rw [ih]
      cases xs with
      | nil => simp [hx]
      | cons y ys => rw [List.getLast?_cons_cons]

/-- The tokens of a list, joined, are the list, up to a separator at its end. -/
theorem intercalate_tokens {sep : α} {xs : List α} (h : xs ≠ []) :
    xs = [sep].intercalate (tokens sep xs) ++ if xs.getLast? = some sep then [sep] else [] :=
  @intercalate_tokensLoop _ _ sep xs [] (.inl h)

/-- The first token begins the list, and a separator or nothing follows it. -/
theorem eq_of_tokens_eq_cons {sep : α} {xs t : List α} {ts : List (List α)}
    (h : tokens sep xs = t :: ts) : xs = t ∨ ∃ ys, xs = t ++ sep :: ys := by
  have hne : xs ≠ [] := by
    rintro rfl
    cases h
  have hjoin := @intercalate_tokens _ _ sep xs hne
  rw [h] at hjoin
  cases ts with
  | nil =>
    rw [List.intercalate_singleton] at hjoin
    split at hjoin
    · exact .inr ⟨[], hjoin⟩
    · exact .inl (by rwa [List.append_nil] at hjoin)
  | cons u us =>
    rw [List.intercalate_cons_of_ne_nil (List.cons_ne_nil _ _), List.append_assoc,
      List.append_assoc] at hjoin
    exact .inr ⟨_, hjoin⟩

end PhxSql.Lib
