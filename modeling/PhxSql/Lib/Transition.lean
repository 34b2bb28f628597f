import Mathlib.Logic.Relation

/-!
# Labelled transition systems with a partial step function

A system has a start state and a step function that is undefined where an action is not enabled.
`ReachableBy` restricts the runs to steps that meet a side condition; `Reachable` is the
unrestricted case. An invariant that holds at the start and is kept by every permitted step holds in
every state reached (`ReachableBy.invariant`). Where a step keeps the invariant exactly if it is
permitted, a run keeps it in all its states exactly if all its steps are permitted
(`alongRun_iff_stepsMeet`).
-/

set_option autoImplicit false

namespace PhxSql.Lib.Transition

universe u v

variable {σ : Type u} {α : Type v}

/-- A start state and a partial step function. -/
structure System (σ : Type u) (α : Type v) where
  init : σ
  step : σ → α → Option σ

/-- States reached by steps that all meet the side condition `ok`. -/
inductive ReachableBy (S : System σ α) (ok : σ → α → Prop) : σ → Prop
  | init : ReachableBy S ok S.init
  | step {s s' : σ} {a : α} :
      ReachableBy S ok s → ok s a → S.step s a = some s' → ReachableBy S ok s'

/-- States reached by any steps. -/
abbrev Reachable (S : System σ α) : σ → Prop :=
  ReachableBy S fun _ _ => True

/-- The state after a list of actions, when every one of them is enabled. -/
def run (S : System σ α) : σ → List α → Option σ
  | s, [] => some s
  | s, a :: as => (S.step s a).bind fun s' => run S s' as

/-- The same run, undefined also where an action does not meet the side condition. -/
def checkedRun (S : System σ α) (ok : σ → α → Prop) [∀ s a, Decidable (ok s a)] :
    σ → List α → Option σ
  | s, [] => some s
  | s, a :: as => if ok s a then (S.step s a).bind fun s' => checkedRun S ok s' as else none

/-- The property holds in every state of a run. -/
def AlongRun (S : System σ α) (P : σ → Prop) : σ → List α → Prop
  | s, [] => P s
  | s, a :: as => P s ∧ ∀ s', S.step s a = some s' → AlongRun S P s' as

/-- Every step of a run meets the side condition. -/
def StepsMeet (S : System σ α) (ok : σ → α → Prop) : σ → List α → Prop
  | _, [] => True
  | s, a :: as => ok s a ∧ ∀ s', S.step s a = some s' → StepsMeet S ok s' as

/-- The invariant rule. -/
theorem ReachableBy.invariant {S : System σ α} {ok : σ → α → Prop} {Inv : σ → Prop}
    (hinit : Inv S.init)
    (hstep : ∀ s a s', Inv s → ok s a → S.step s a = some s' → Inv s')
    {s : σ} (h : ReachableBy S ok s) : Inv s := by
  induction h with
  | init => exact hinit
  | step _ hok hs ih => exact hstep _ _ _ ih hok hs

theorem AlongRun.head {S : System σ α} {P : σ → Prop} {s : σ} {as : List α}
    (h : AlongRun S P s as) : P s := by
  cases as with
  | nil => exact h
  | cons a as => exact h.1

/-- The exact form of the invariant rule. -/
theorem alongRun_iff_stepsMeet {S : System σ α} {P : σ → Prop} {ok : σ → α → Prop}
    (hstep : ∀ s a s', P s → S.step s a = some s' → (P s' ↔ ok s a)) (as : List α) :
    ∀ {s t : σ}, P s → run S s as = some t → (AlongRun S P s as ↔ StepsMeet S ok s as) := by
  induction as with
  | nil => exact fun hP _ => ⟨fun _ => trivial, fun _ => hP⟩
  | cons a as ih =>
    intro s t hP hrun
    obtain ⟨s', hs, hrun'⟩ := Option.bind_eq_some_iff.mp hrun
    have hiff := hstep s a s' hP hs
    -- There is one next state, and it has the property if the step is permitted.
    constructor
    · rintro ⟨-, hall⟩
      have hP' : P s' := (hall s' hs).head
      refine ⟨hiff.mp hP', fun s'' hs'' => ?_⟩
      rw [hs] at hs''
      cases hs''
      exact (ih hP' hrun').mp (hall s' hs)
    · rintro ⟨hok, hall⟩
      refine ⟨hP, fun s'' hs'' => ?_⟩
      rw [hs] at hs''
      cases hs''
      exact (ih (hiff.mpr hok) hrun').mpr (hall s' hs)

/-- A side condition on the actions alone. -/
theorem stepsMeet_action_iff {S : System σ α} {ok : α → Prop} (as : List α) :
    ∀ {s t : σ}, run S s as = some t → (StepsMeet S (fun _ a => ok a) s as ↔ ∀ a ∈ as, ok a) := by
  induction as with
  | nil => exact fun _ => ⟨fun _ _ h => (List.not_mem_nil h).elim, fun _ => trivial⟩
  | cons a as ih =>
    intro s t hrun
    obtain ⟨s', hs, hrun'⟩ := Option.bind_eq_some_iff.mp hrun
    rw [List.forall_mem_cons, ← ih hrun']
    constructor
    · rintro ⟨hok, hall⟩
      exact ⟨hok, hall s' hs⟩
    · rintro ⟨hok, hmeet⟩
      refine ⟨hok, fun s'' hs'' => ?_⟩
      rw [hs] at hs''
      cases hs''
      exact hmeet

/-- A weaker side condition reaches at least as much. -/
theorem ReachableBy.mono {S : System σ α} {ok ok' : σ → α → Prop}
    (himp : ∀ s a, ok s a → ok' s a) {s : σ} (h : ReachableBy S ok s) : ReachableBy S ok' s := by
  induction h with
  | init => exact .init
  | step _ hok hs ih => exact .step ih (himp _ _ hok) hs

/-- A checked run from a reachable state ends in a reachable state. -/
theorem ReachableBy.checkedRun {S : System σ α} {ok : σ → α → Prop} [∀ s a, Decidable (ok s a)] :
    ∀ (as : List α) {s t : σ}, ReachableBy S ok s → Transition.checkedRun S ok s as = some t →
      ReachableBy S ok t
  | [], s, t, h, hr => by
      simp only [Transition.checkedRun, Option.some.injEq] at hr
      exact hr ▸ h
  | a :: as, s, t, h, hr => by
      simp only [Transition.checkedRun, Option.ite_none_right_eq_some, Option.bind_eq_some_iff] at hr
      obtain ⟨hok, s', hs, hr'⟩ := hr
      exact ReachableBy.checkedRun as (.step h hok hs) hr'

/-- The steps of a checked run meet the side condition. -/
theorem stepsMeet_of_checkedRun {S : System σ α} {ok : σ → α → Prop} [∀ s a, Decidable (ok s a)] :
    ∀ (as : List α) {s t : σ}, Transition.checkedRun S ok s as = some t → StepsMeet S ok s as
  | [], _, _, _ => trivial
  | a :: as, s, t, hr => by
      simp only [Transition.checkedRun, Option.ite_none_right_eq_some, Option.bind_eq_some_iff] at hr
      obtain ⟨hok, s', hs, hr'⟩ := hr
      refine ⟨hok, fun s'' hs'' => ?_⟩
      rw [hs] at hs''
      cases hs''
      exact stepsMeet_of_checkedRun as hr'

/-- A run from a reachable state ends in a reachable state. -/
theorem Reachable.run {S : System σ α} :
    ∀ (as : List α) {s t : σ}, Reachable S s → Transition.run S s as = some t → Reachable S t
  | [], s, t, h, hr => by
      simp only [Transition.run, Option.some.injEq] at hr
      exact hr ▸ h
  | a :: as, s, t, h, hr => by
      simp only [Transition.run, Option.bind_eq_some_iff] at hr
      obtain ⟨s', hs, hr'⟩ := hr
      exact Reachable.run as (.step h trivial hs) hr'

/-- A run from the start reaches its last state. -/
theorem reachable_of_run {S : System σ α} {as : List α} {t : σ} (h : run S S.init as = some t) :
    Reachable S t :=
  Reachable.run as .init h

end PhxSql.Lib.Transition
