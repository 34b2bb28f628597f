import Mathlib.Logic.Function.Iterate

/-!
# Scripts that can be stopped

A script is a list of statements that are executed one after another on a state. The first one that
fails ends the script, and a statement that is reported as failed may have taken effect. Between two
statements the state can be disturbed any number of times.

`Guards` says that a property holds at every point of every execution of a script. `Outline` is the
proof rule: an assertion before each statement that disturbances keep.
-/

set_option autoImplicit false

namespace PhxSql.Lib.Script

universe u v

variable {σ : Type u} {γ : Type v} (exec : γ → σ → σ) (disturb : σ → σ) (Inv : σ → Prop)

/-- The property holds wherever the rest of a script is left. -/
def Guards : List γ → σ → Prop
  | [], s => ∀ n, Inv (disturb^[n] s)
  | c :: cs, s => ∀ n, Inv (disturb^[n] s) ∧ Inv (exec c (disturb^[n] s)) ∧
      Guards cs (exec c (disturb^[n] s))

/-- From every state with the assertion, the property is guarded. -/
def Outline (P : σ → Prop) (cs : List γ) : Prop :=
  ∀ s, P s → Guards exec disturb Inv cs s

/-- An assertion that disturbances keep. -/
def Stable (P : σ → Prop) : Prop :=
  ∀ s, P s → P (disturb s)

variable {exec disturb Inv}

theorem Stable.iterate {P : σ → Prop} (h : Stable disturb P) {s : σ} (hs : P s) (n : Nat) :
    P (disturb^[n] s) := by
  induction n with
  | zero => exact hs
  | succ n ih =>
    rw [Function.iterate_succ_apply']
    exact h _ ih

theorem Guards.inv {cs : List γ} {s : σ} (h : Guards exec disturb Inv cs s) : Inv s := by
  cases cs with
  | nil => exact h 0
  | cons c cs => exact (h 0).1

/-- The next statement takes effect. -/
theorem Guards.step {c : γ} {cs : List γ} {s : σ} (h : Guards exec disturb Inv (c :: cs) s) :
    Inv (exec c s) ∧ Guards exec disturb Inv cs (exec c s) :=
  (h 0).2

/-- The state is disturbed. -/
theorem Guards.disturbed {cs : List γ} {s : σ} (h : Guards exec disturb Inv cs s) :
    Guards exec disturb Inv cs (disturb s) := by
  cases cs with
  | nil => exact fun n => h (n + 1)
  | cons c cs => exact fun n => h (n + 1)

/-- A script that is over. -/
theorem Outline.nil {P : σ → Prop} (hstable : Stable disturb P) (hinv : ∀ s, P s → Inv s) :
    Outline exec disturb Inv P [] :=
  fun _ hs n => hinv _ (hstable.iterate hs n)

/-- A statement takes one assertion to the next. -/
theorem Outline.cons {P Q : σ → Prop} {c : γ} {cs : List γ} (hstable : Stable disturb P)
    (hinv : ∀ s, P s → Inv s) (hexec : ∀ s, P s → Q (exec c s))
    (hrest : Outline exec disturb Inv Q cs) : Outline exec disturb Inv P (c :: cs) := by
  intro s hs n
  have hn := hstable.iterate hs n
  have hafter := hrest _ (hexec _ hn)
  exact ⟨hinv _ hn, hafter.inv, hafter⟩

end PhxSql.Lib.Script
