import Mathlib.Algebra.Group.Nat.Defs
import Mathlib.Logic.Basic
import PhxSql.Lib.Transition

/-!
# The monitor and the status word

`AgentMonitorComm` holds a status and a counter of master changes that no one has looked at yet. A
change of the master (`ResetMaster`, from the paxos thread) counts one up; the next `GetStatus`,
from whichever thread, turns the counter into the status `MASTER_CHANGING`. The loop of
`AgentMonitor::Process` reads the status, checks, and writes the status that follows.

The loop is a program counter that advances by one call at a time; the calls of the other threads
come in between at any point. What a check or a query gives is part of the action. The state also
keeps, for the statements only, whether some change has not been checked: no `CheckMasterInit` that
started after it has returned `OK`.

A change is reported as checked too early exactly if the monitor writes the status while a change is
unchecked that a `GetStatus` has already taken out of the counter (`SafeStep`).
-/

set_option autoImplicit false

namespace PhxSql.Monitor

open PhxSql.Lib

/-! ## The status word -/

inductive Status
  | nothing
  | waiting
  | masterChanging
  | masterChangingInit
  | running
  deriving DecidableEq, Repr

/-- `AgentMonitorComm`; the counter is an `int`, given by its bits. -/
structure AgentMonitorComm where
  status : Status := .nothing
  readyNum : Nat := 0
  deriving DecidableEq, Repr

/-- `AgentMonitorComm::MonitorStart`. -/
def AgentMonitorComm.monitorStart (c : AgentMonitorComm) : AgentMonitorComm :=
  if c.status = .nothing then { c with status := .waiting } else c

/-- `AgentMonitorComm::ResetMaster`. -/
def AgentMonitorComm.resetMaster (c : AgentMonitorComm) : AgentMonitorComm :=
  { c with readyNum := (c.readyNum + 1) % 2 ^ 32 }

/-- `AgentMonitorComm::GetStatus`. -/
def AgentMonitorComm.getStatus (c : AgentMonitorComm) : Status × AgentMonitorComm :=
  if c.readyNum ≠ 0 then (.masterChanging, { status := .masterChanging, readyNum := 0 })
  else (c.status, c)

/-- `AgentMonitorComm::SetStatus`. -/
def AgentMonitorComm.setStatus (c : AgentMonitorComm) (status : Status) : AgentMonitorComm :=
  { c with status := status }

/-! ## The loop of the monitor -/

/-- Where the loop of `AgentMonitor::Process` stands. -/
inductive MonitorPc
  /-- Before the first `GetStatus` of a round. -/
  | top
  /-- In `TimeWait`, before the second `GetStatus`. -/
  | timeWait
  /-- At the case of the switch. -/
  | atCase (status : Status)
  /-- `CheckMasterInit` is running. -/
  | checking
  /-- It has returned `OK`; before `SetStatus(MASTER_CHANGING_INIT)`. -/
  | checked
  /-- `MasterInit` is running. -/
  | initing
  /-- It has returned `OK`; before `SetStatus(RUNNING)`. -/
  | inited
  /-- `CheckRunning` is running `CheckMasterInit`, on a master that is read-only. -/
  | runningCheck
  /-- Behind the switch. -/
  | behind
  deriving DecidableEq, Repr

/-- The threads' shared state, the place of the monitor and the two facts about checks: some change
is unchecked; the `CheckMasterInit` that is running started after the last change. -/
structure MonitorState where
  comm : AgentMonitorComm := {}
  pc : MonitorPc := .top
  unchecked : Bool := false
  covers : Bool := false
  deriving DecidableEq, Repr

/-- A `CheckMasterInit` starts. -/
def MonitorState.startCheck (s : MonitorState) (pc : MonitorPc) : MonitorState :=
  { s with pc := pc, covers := true }

/-- A `CheckMasterInit` has returned `OK`. -/
def MonitorState.passCheck (s : MonitorState) (pc : MonitorPc) : MonitorState :=
  { s with pc := pc, unchecked := s.unchecked && !s.covers }

/-- The next call of the monitor; `outcome` is what the query or the check at this place gives. The
cases of the switch fall through to the next one where they do not leave it. -/
def monitorStep (s : MonitorState) (outcome : Bool) : MonitorState :=
  match s.pc with
  | .top => { s with comm := s.comm.getStatus.2, pc := .timeWait }
  | .timeWait => { s with comm := s.comm.getStatus.2, pc := .atCase s.comm.getStatus.1 }
  | .atCase .nothing =>
    -- A master version above 0 goes on as in the next case, otherwise the loop starts again.
    { s with pc := if outcome then .atCase .waiting else .top }
  | .atCase .waiting => { s with pc := if outcome then .atCase .masterChanging else .behind }
  | .atCase .masterChanging => s.startCheck .checking
  | .checking => if outcome then s.passCheck .checked else { s with pc := .behind }
  | .checked =>
    { s with comm := s.comm.setStatus .masterChangingInit, pc := .atCase .masterChangingInit }
  | .atCase .masterChangingInit => { s with pc := .initing }
  | .initing => { s with pc := if outcome then .inited else .behind }
  | .inited => { s with comm := s.comm.setStatus .running, pc := .atCase .running }
  | .atCase .running => if outcome then s.startCheck .runningCheck else { s with pc := .behind }
  | .runningCheck => if outcome then s.passCheck .behind else { s with pc := .behind }
  | .behind => { s with pc := .top }

inductive MonitorAction
  /-- `ResetMaster` from the paxos thread. -/
  | resetMaster
  /-- `GetStatus` or `IsMasterChanging` from an RPC thread. -/
  | getStatus
  /-- `MonitorStart`. -/
  | monitorStart
  /-- The monitor goes on. -/
  | monitor (outcome : Bool)
  deriving DecidableEq, Repr

def monitorSystem : Transition.System MonitorState MonitorAction where
  init := {}
  step s
    | .resetMaster =>
      some { s with comm := s.comm.resetMaster, unchecked := true, covers := false }
    | .getStatus => some { s with comm := s.comm.getStatus.2 }
    | .monitorStart => some { s with comm := s.comm.monitorStart }
    | .monitor outcome => some (monitorStep s outcome)

/-! ## Reports of an unchecked change -/

/-- The statuses that say that the node has been checked. -/
def Status.ReportsChecked (status : Status) : Prop :=
  status = .masterChangingInit ∨ status = .running

instance (status : Status) : Decidable status.ReportsChecked :=
  inferInstanceAs (Decidable (_ ∨ _))

/-- As long as a change is unchecked, `GetStatus` does not say that the node has been checked. -/
def ChangeReported (s : MonitorState) : Prop :=
  s.unchecked = true → ¬ s.comm.getStatus.1.ReportsChecked

instance (s : MonitorState) : Decidable (ChangeReported s) :=
  inferInstanceAs (Decidable (_ → _))

/-- The monitor does not write the status while a change is unchecked that is no longer counted, and
the counter does not run over to 0 under a status that says that the node has been checked. -/
def SafeStep (s : MonitorState) : MonitorAction → Prop
  | .resetMaster => (s.comm.readyNum + 1) % 2 ^ 32 ≠ 0 ∨ ¬ s.comm.status.ReportsChecked
  | .monitor _ => s.pc = .checked ∨ s.pc = .inited → s.unchecked = true → s.comm.readyNum ≠ 0
  | .getStatus => True
  | .monitorStart => True

instance (s : MonitorState) (a : MonitorAction) : Decidable (SafeStep s a) := by
  cases a <;> unfold SafeStep <;> infer_instance

/-- What `GetStatus` says, by the counter. -/
theorem reportsChecked_getStatus (c : AgentMonitorComm) :
    c.getStatus.1.ReportsChecked ↔ c.readyNum = 0 ∧ c.status.ReportsChecked := by
  unfold AgentMonitorComm.getStatus
  split
  · next h => simp [Status.ReportsChecked, h]
  · next h => simp [not_not.mp h]

theorem changeReported_iff (s : MonitorState) :
    ChangeReported s ↔
      (s.unchecked = true → s.comm.readyNum = 0 → ¬ s.comm.status.ReportsChecked) := by
  rw [ChangeReported, reportsChecked_getStatus, not_and]

/-- A `GetStatus` leaves nothing in the counter, and a status that does not say more than before. -/
theorem getStatus_getStatus (c : AgentMonitorComm) : c.getStatus.2.getStatus.1 = c.getStatus.1 := by
  unfold AgentMonitorComm.getStatus
  split
  · rfl
  · rfl

/-- A call that changes the facts about checks at most by passing one keeps the property. -/
theorem ChangeReported.mono {s s' : MonitorState} (h : ChangeReported s)
    (hcomm : s'.comm.getStatus.1 = s.comm.getStatus.1)
    (hunchecked : s'.unchecked = true → s.unchecked = true) : ChangeReported s' := by
  intro hs'
  rw [hcomm]
  exact h (hunchecked hs')

/-- The monitor writes a status that says that the node has been checked. -/
theorem changeReported_setStatus_iff (s : MonitorState) {status : Status} (pc : MonitorPc)
    (hstatus : status.ReportsChecked) :
    ChangeReported { s with comm := s.comm.setStatus status, pc := pc } ↔
      (s.unchecked = true → s.comm.readyNum ≠ 0) := by
  rw [changeReported_iff]
  simp only [AgentMonitorComm.setStatus, hstatus, not_true_eq_false, ne_eq]

/-- A call of the monitor keeps the property exactly if it is safe. -/
theorem changeReported_monitorStep_iff {s : MonitorState} (h : ChangeReported s) (outcome : Bool) :
    ChangeReported (monitorStep s outcome) ↔ SafeStep s (.monitor outcome) := by
  have hsame : ∀ s' : MonitorState, s'.comm = s.comm → s'.unchecked = s.unchecked →
      ChangeReported s' := fun s' hcomm hunchecked =>
    h.mono (by rw [hcomm]) (by rw [hunchecked]; exact id)
  -- At the places where the status is not written the step is safe, and the property is kept.
  have hkept : ∀ {s' : MonitorState}, s.pc ≠ .checked → s.pc ≠ .inited → ChangeReported s' →
      (ChangeReported s' ↔ SafeStep s (.monitor outcome)) := by
    intro s' hchecked hinited hs'
    refine iff_of_true hs' fun hpc => ?_
    rcases hpc with hpc | hpc
    · exact absurd hpc hchecked
    · exact absurd hpc hinited
  obtain ⟨comm, pc, unchecked, covers⟩ := s
  cases pc with
  | top => exact hkept (by simp) (by simp) (h.mono (getStatus_getStatus comm) id)
  | timeWait => exact hkept (by simp) (by simp) (h.mono (getStatus_getStatus comm) id)
  | atCase status =>
    apply hkept (by simp) (by simp)
    cases status with
    | running =>
      cases outcome with
      | true => exact hsame _ rfl rfl
      | false => exact hsame _ rfl rfl
    | nothing => exact hsame _ rfl rfl
    | waiting => exact hsame _ rfl rfl
    | masterChanging => exact hsame _ rfl rfl
    | masterChangingInit => exact hsame _ rfl rfl
  | checking =>
    apply hkept (by simp) (by simp)
    cases outcome with
    | true => exact h.mono rfl fun hs' => (Bool.and_eq_true_iff.mp hs').1
    | false => exact hsame _ rfl rfl
  | checked =>
    have hiff := changeReported_setStatus_iff ⟨comm, .checked, unchecked, covers⟩
      (.atCase .masterChangingInit) (show Status.ReportsChecked .masterChangingInit from .inl rfl)
    exact hiff.trans (by simp [SafeStep])
  | initing => exact hkept (by simp) (by simp) (hsame _ rfl rfl)
  | inited =>
    have hiff := changeReported_setStatus_iff ⟨comm, .inited, unchecked, covers⟩ (.atCase .running)
      (show Status.ReportsChecked .running from .inr rfl)
    exact hiff.trans (by simp [SafeStep])
  | runningCheck =>
    apply hkept (by simp) (by simp)
    cases outcome with
    | true => exact h.mono rfl fun hs' => (Bool.and_eq_true_iff.mp hs').1
    | false => exact hsame _ rfl rfl
  | behind => exact hkept (by simp) (by simp) (hsame _ rfl rfl)

/-- A step of any thread keeps the property exactly if it is safe. -/
theorem changeReported_step_iff {s s' : MonitorState} {a : MonitorAction} (h : ChangeReported s)
    (hs : monitorSystem.step s a = some s') : ChangeReported s' ↔ SafeStep s a := by
  cases a with
  | resetMaster =>
    cases hs
    rw [changeReported_iff]
    simp only [AgentMonitorComm.resetMaster, forall_const, SafeStep]
    exact imp_iff_not_or
  | getStatus =>
    cases hs
    exact iff_of_true (h.mono (getStatus_getStatus s.comm) id) trivial
  | monitorStart =>
    cases hs
    refine iff_of_true ?_ trivial
    rw [changeReported_iff] at h ⊢
    intro hunchecked hready
    simp only [AgentMonitorComm.monitorStart] at hready ⊢
    split at hready
    · next hnothing => simp [hnothing, Status.ReportsChecked]
    · next hnothing =>
      rw [if_neg hnothing]
      exact h hunchecked hready
  | monitor outcome =>
    cases hs
    exact changeReported_monitorStep_iff h outcome

/-- In a run of the paxos thread, the RPC threads and the monitor, in any order and with any
outcomes, `GetStatus` never says that the node has been checked while a change is unchecked exactly
if all steps of the run are safe. -/
theorem master_change_checked_iff (acts : List MonitorAction) {t : MonitorState}
    (hrun : Transition.run monitorSystem monitorSystem.init acts = some t) :
    Transition.AlongRun monitorSystem ChangeReported monitorSystem.init acts ↔
      Transition.StepsMeet monitorSystem SafeStep monitorSystem.init acts :=
  Transition.alongRun_iff_stepsMeet (fun _ _ _ h hs => changeReported_step_iff h hs) acts
    (by decide) hrun

/-- A change, the round of the monitor that checks it, and a status query before and after. -/
def checkedRun : List MonitorAction :=
  [.resetMaster, .getStatus] ++ List.replicate 5 (.monitor true) ++ [.getStatus] ++
    List.replicate 3 (.monitor true) ++ [.getStatus]

theorem master_change_checked_in_checkedRun :
    Transition.AlongRun monitorSystem ChangeReported monitorSystem.init checkedRun :=
  (master_change_checked_iff checkedRun rfl).mpr (Transition.stepsMeet_of_checkedRun _ rfl)

/-- A second change comes while `CheckMasterInit` is running for the first one, and a status query
takes it out of the counter before the check returns. -/
def overwrittenRun : List MonitorAction :=
  [.resetMaster] ++ List.replicate 3 (.monitor true) ++ [.resetMaster, .getStatus] ++
    List.replicate 2 (.monitor true)

/-- The status that the query set is overwritten: the next query says `MASTER_CHANGING_INIT`
although nothing was checked after the second change. -/
theorem master_change_overwritten :
    ∃ s, Transition.run monitorSystem monitorSystem.init overwrittenRun = some s ∧
      s.unchecked = true ∧ s.comm.getStatus.1 = .masterChangingInit :=
  ⟨_, rfl, rfl, rfl⟩

end PhxSql.Monitor
