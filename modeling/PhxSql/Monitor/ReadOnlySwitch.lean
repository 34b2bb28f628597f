import PhxSql.Lib.Script
import PhxSql.Lib.Transition
import PhxSql.Monitor.CatchUp

/-!
# Opening and closing a MySQL server for writes

The monitor of a phxbinlogsvr is what switches the MySQL server of its machine between the two modes.
`MasterStart` stops the replication and opens the server for writes; `SlaveStart` closes it and
starts the replication from the phxbinlogsvr of the machine. If the master record has an export
address, a master replicates from that address and is open at the same time.

Both are sequences of statements. Any statement can fail, which ends the sequence, and MySQL can
restart in between: it then comes up closed and does not replicate (`--super_read_only` and
`skip_slave_start`). The values on which a check decides were read before.

Whatever fails, a server is open only because of a check that has read that its node is the master
and that MySQL has executed the newest GTID, or, with an export address, that the server was open.
While it is open it does not replicate, except from the export address of that check
(`open_only_after_check`).
-/

set_option autoImplicit false

namespace PhxSql.Monitor

open PhxSql.Proto PhxSql.Lib

/-! ## The server -/

/-- The statements of `MasterStart` and `SlaveStart`. -/
inductive Statement
  | stopSlave
  | setServerId
  | changeMaster (ip : Bytes) (port : Nat)
  | superReadOnly (on : Bool)
  | readOnly (on : Bool)
  | startSlave
  deriving DecidableEq, Repr

/-- A MySQL server: its two read-only variables, whether it replicates, and from where. -/
structure Server where
  superReadOnly : Bool := true
  readOnly : Bool := true
  slaveRunning : Bool := false
  source : Option (Bytes × Nat) := none
  deriving DecidableEq, Repr

/-- A statement on a server. `super_read_only` comes with `read_only`, and without `read_only` there
is no `super_read_only`. -/
def Server.exec : Statement → Server → Server
  | .stopSlave, s => { s with slaveRunning := false }
  | .setServerId, s => s
  | .changeMaster ip port, s => if s.slaveRunning then s else { s with source := some (ip, port) }
  | .superReadOnly on, s => { s with superReadOnly := on, readOnly := s.readOnly || on }
  | .readOnly on, s => { s with superReadOnly := s.superReadOnly && on, readOnly := on }
  | .startSlave, s => { s with slaveRunning := s.source.isSome }

/-- The start of a server. -/
def Server.restart (s : Server) : Server :=
  { source := s.source }

/-! ## The checks -/

/-- `127.0.0.1`. -/
def localhost : Bytes :=
  [49, 50, 55, 46, 48, 46, 48, 46, 49]

/-- `ON`. -/
def onText : Bytes :=
  [79, 78]

/-- `OFF`. -/
def offText : Bytes :=
  [79, 70, 70]

/-- What a check reads besides the values of `AgentView`: whether the node is the master when
`CheckRunning` asks, the answers of MySQL for `super_read_only` and `Slave_running`, if the queries
succeed, and whether a replica is connecting, `IsSlaveReady` holds and a replica account is known. -/
structure ModeView extends AgentView where
  isMasterRunning : Bool
  superReadOnlyText : Option Bytes
  slaveRunningText : Option Bytes
  isSlaveConnecting : Bool
  isSlaveReady : Bool
  replicaUser : Bool

/-- `MasterMonitor::MasterStart`. -/
def masterStart : List Statement :=
  [.stopSlave, .superReadOnly false, .readOnly false]

/-- `SlaveMonitor::SlaveStart`. -/
def slaveStart (v : ModeView) (ip : Bytes) (port : Nat) (readOnly : Bool) : List Statement :=
  [.stopSlave, .setServerId] ++
    if v.replicaUser then
      [.changeMaster ip port, .superReadOnly readOnly, .readOnly readOnly, .startSlave]
    else []

/-- `strcasecmp` with `ON` gives 0. -/
def isOnText (answer : Bytes) : Bool :=
  answer.map (fun b => if 65 ≤ b ∧ b ≤ 90 then b + 32 else b) = [111, 110]

/-- `SlaveMonitor::CheckSlaveRunningStatus`, with an export address or without one. -/
def checkSlaveRunningStatus (v : ModeView) (exported : Option (Bytes × Nat)) : List Statement :=
  if v.isSlaveConnecting then []
  else
    match v.slaveRunningText with
    | none => []
    | some answer =>
      if isOnText answer then []
      else
        match exported with
        | some (ip, port) => slaveStart v ip port false
        | none => slaveStart v localhost v.enginePort true

/-- `MasterMonitor::CheckMasterRunningStatus`. -/
def checkMasterRunningStatus (v : ModeView) : List Statement :=
  match v.slaveRunningText with
  | none => []
  | some answer => if answer = onText then slaveStart v localhost v.enginePort true else []

/-- The address that the master record exports. -/
def exportAddress (v : AgentView) : Bytes × Nat :=
  (v.masterInfo.2.exportIp,
    if v.masterInfo.2.exportPort = 0 then v.enginePort else v.masterInfo.2.exportPort)

/-- The statements of a call of `CheckMasterInit` or `CheckMasterTimeOut`. -/
def callStatements (v : ModeView) : AgentCall → List Statement
  | .masterStart => masterStart
  | .slaveStart ip port => slaveStart v ip port false
  | .checkSlaveRunningStatus => checkSlaveRunningStatus v none
  | .slaveCheckRelayLog => []
  | .setMaster => []

/-- `AgentMonitor::CheckRunning`. -/
def checkRunning (v : ModeView) : List Statement :=
  match v.superReadOnlyText with
  | none => []
  | some answer =>
    if answer = offText then
      if v.isMasterRunning then
        if v.masterInfo.1 ≠ .ok then []
        else if v.masterInfo.2.exportIp.isEmpty then checkMasterRunningStatus v
        else checkSlaveRunningStatus v (some (exportAddress v.toAgentView))
      else if v.isSlaveReady then slaveStart v localhost v.enginePort true
      else []
    else if v.isMasterRunning then (checkMasterInit v.toAgentView).1.flatMap (callStatements v)
    else checkSlaveRunningStatus v none

/-- A check of the monitor. -/
inductive Check
  | masterInit (v : ModeView)
  | running (v : ModeView)
  | masterTimeOut (v : ModeView)

def Check.view : Check → ModeView
  | .masterInit v => v
  | .running v => v
  | .masterTimeOut v => v

/-- The statements of a check. -/
def Check.script : Check → List Statement
  | .masterInit v => (checkMasterInit v.toAgentView).1.flatMap (callStatements v)
  | .running v => checkRunning v
  | .masterTimeOut v => (checkMasterTimeOut v.toAgentView).1.flatMap (callStatements v)

/-! ## The system -/

/-- A server under its monitor, with the check that is running and the check by which the server was
opened last. -/
structure Control where
  server : Server := {}
  check : Option Check := none
  opened : Option Check := none

/-- A statement of the check that is running. -/
def Control.exec (c : Statement) (σ : Control) : Control :=
  { σ with
    server := σ.server.exec c
    opened := if c = .superReadOnly false ∨ c = .readOnly false then σ.check else σ.opened }

def Control.restart (σ : Control) : Control :=
  { σ with server := σ.server.restart }

/-- The state of the system, with the statements that are left of the check. -/
structure Monitored where
  control : Control := {}
  todo : List Statement := []

/-- A check is made; the next statement is sent, takes effect or not, and returns or fails; MySQL
restarts. -/
inductive ControlAction
  | check (c : Check)
  | query (effect ok : Bool)
  | restart

def controlStep (μ : Monitored) : ControlAction → Option Monitored
  | .check c =>
    if μ.todo = [] then
      some { control := { μ.control with check := some c }, todo := c.script }
    else none
  | .query effect ok =>
    match μ.todo with
    | [] => none
    | c :: cs =>
      -- A statement that succeeds has taken effect, and one that fails ends the check.
      if ok then some { control := μ.control.exec c, todo := cs }
      else some { control := if effect then μ.control.exec c else μ.control }
  | .restart => some { μ with control := μ.control.restart }

def controlSystem : Transition.System Monitored ControlAction where
  init := {}
  step := controlStep

/-! ## The scripts -/

/-- MySQL has executed the newest GTID of the log, as far as `IsGTIDCompleted` can tell. -/
def CaughtUp (v : AgentView) : Prop :=
  (getMySQLMaxGTIDList v.answer).1 = .ok ∧
    isGTIDCompleted (getMySQLMaxGTIDList v.answer).2 v.newestGtid = true

/-- What a check has read when it opens the server. -/
def Check.Opens : Check → Prop
  | .masterInit v => v.isMaster = true ∧ CaughtUp v.toAgentView
  | .running v => (v.isMaster = true ∧ CaughtUp v.toAgentView) ∨
      (v.isMasterRunning = true ∧ v.superReadOnlyText = some offText ∧ v.masterInfo.2.exportIp ≠ [])
  | .masterTimeOut _ => False

/-- The scripts that there are. -/
inductive ScriptOf (c : Check) : List Statement → Prop
  | none : ScriptOf c []
  /-- No replica account is known. -/
  | stop : ScriptOf c [.stopSlave, .setServerId]
  | close (port : Nat) : ScriptOf c
      [.stopSlave, .setServerId, .changeMaster localhost port, .superReadOnly true, .readOnly true,
        .startSlave]
  | opens (h : c.Opens) : ScriptOf c masterStart
  | exports (h : c.Opens) (hne : c.view.masterInfo.2.exportIp ≠ []) : ScriptOf c
      [.stopSlave, .setServerId,
        .changeMaster (exportAddress c.view.toAgentView).1 (exportAddress c.view.toAgentView).2,
        .superReadOnly false, .readOnly false, .startSlave]

theorem scriptOf_close (c : Check) (v : ModeView) (port : Nat) :
    ScriptOf c (slaveStart v localhost port true) := by
  unfold slaveStart
  split
  · exact .close port
  · exact .stop

theorem scriptOf_exports {c : Check} (h : c.Opens) (v : ModeView)
    (hne : c.view.masterInfo.2.exportIp ≠ []) :
    ScriptOf c (slaveStart v (exportAddress c.view.toAgentView).1
      (exportAddress c.view.toAgentView).2 false) := by
  unfold slaveStart
  split
  · exact .exports h hne
  · exact .stop

theorem scriptOf_checkSlave (c : Check) (v : ModeView) :
    ScriptOf c (checkSlaveRunningStatus v none) := by
  unfold checkSlaveRunningStatus
  split
  · exact .none
  · split
    · exact .none
    · split
      · exact .none
      · exact scriptOf_close c v _

/-- The statements of `CheckMasterInit`. -/
theorem scriptOf_masterInit {c : Check}
    (h : c.view.isMaster = true → CaughtUp c.view.toAgentView → c.Opens) :
    ScriptOf c ((checkMasterInit c.view.toAgentView).1.flatMap (callStatements c.view)) := by
  simp only [checkMasterInit]
  split
  · rename_i hmaster
    split
    · exact .none
    · rename_i hok
      split
      · rename_i hcompleted
        have hopens : c.Opens := h hmaster ⟨not_not.mp hok, hcompleted⟩
        unfold startCalls
        split
        · exact .none
        · split
          · exact .opens hopens
          · rename_i hne
            have hscript := scriptOf_exports hopens c.view (by simpa using hne)
            simpa [callStatements, exportAddress] using hscript
      · simpa [callStatements] using scriptOf_checkSlave c c.view
  · exact .none

/-- The statements of `CheckRunning`. -/
theorem scriptOf_running (v : ModeView) : ScriptOf (.running v) (checkRunning v) := by
  unfold checkRunning
  split
  · exact .none
  · rename_i answer hanswer
    split
    · rename_i hoff
      split
      · rename_i hmaster
        split
        · exact .none
        · split
          · unfold checkMasterRunningStatus
            split
            · exact .none
            · split
              · exact scriptOf_close _ v _
              · exact .none
          · rename_i hne
            have hexport : v.masterInfo.2.exportIp ≠ [] := by simpa using hne
            have hopens : (Check.running v).Opens := .inr ⟨hmaster, hoff ▸ hanswer, hexport⟩
            unfold checkSlaveRunningStatus
            split
            · exact .none
            · split
              · exact .none
              · split
                · exact .none
                · exact scriptOf_exports hopens v hexport
      · split
        · exact scriptOf_close _ v _
        · exact .none
    · split
      · exact scriptOf_masterInit (c := .running v) fun hmaster hup => .inl ⟨hmaster, hup⟩
      · exact scriptOf_checkSlave _ v

/-- The statements of `CheckMasterTimeOut`. -/
theorem scriptOf_masterTimeOut (c : Check) (v : ModeView) :
    ScriptOf c ((checkMasterTimeOut v.toAgentView).1.flatMap (callStatements v)) := by
  simp only [checkMasterTimeOut]
  generalize (if v.isMaster = true then RetCode.ok else agentIsGTIDCompleted v.toAgentView) = ret
  split
  · exact .none
  · split
    · exact .none
    · split
      · exact .none
      · simpa [callStatements] using scriptOf_checkSlave c v

theorem Check.scriptOf (c : Check) : ScriptOf c c.script := by
  cases c with
  | masterInit v => exact scriptOf_masterInit (c := .masterInit v) fun hmaster hup => ⟨hmaster, hup⟩
  | running v => exact scriptOf_running v
  | masterTimeOut v => exact scriptOf_masterTimeOut _ v

/-! ## The invariant -/

/-- An open server was opened by a check, and it does not replicate from anywhere but the export
address of this check. -/
def OpenedByCheck (σ : Control) : Prop :=
  σ.server.superReadOnly = false →
    ∃ c, σ.opened = some c ∧ c.Opens ∧
      (σ.server.slaveRunning = true →
        σ.server.source = some (exportAddress c.view.toAgentView) ∧
          c.view.masterInfo.2.exportIp ≠ [])

/-- The assertion at the start of a check. -/
def Checking (c : Check) (σ : Control) : Prop :=
  OpenedByCheck σ ∧ σ.check = some c

/-- The assertion while the replication is stopped. -/
def Stopped (c : Check) (σ : Control) : Prop :=
  Checking c σ ∧ σ.server.slaveRunning = false

/-- The assertion behind `change master`. -/
def Sourced (c : Check) (source : Bytes × Nat) (σ : Control) : Prop :=
  Stopped c σ ∧ σ.server.source = some source

theorem openedByCheck_of_stopped {σ : Control} (hstopped : σ.server.slaveRunning = false)
    (h : σ.server.superReadOnly = false → ∃ c, σ.opened = some c ∧ c.Opens) : OpenedByCheck σ := by
  intro hopen
  obtain ⟨c, hc, hopens⟩ := h hopen
  refine ⟨c, hc, hopens, ?_⟩
  intro hrunning
  rw [hstopped] at hrunning
  cases hrunning

theorem OpenedByCheck.restart (σ : Control) : OpenedByCheck σ.restart := by
  intro hopen
  cases hopen

theorem stable_checking (c : Check) : Script.Stable Control.restart (Checking c) :=
  fun σ h => ⟨OpenedByCheck.restart σ, h.2⟩

theorem stable_stopped (c : Check) : Script.Stable Control.restart (Stopped c) :=
  fun σ h => ⟨stable_checking c σ h.1, rfl⟩

theorem stable_sourced (c : Check) (source : Bytes × Nat) :
    Script.Stable Control.restart (Sourced c source) :=
  fun σ h => ⟨stable_stopped c σ h.1, h.2⟩

/-- `stop slave`. -/
theorem Checking.stopSlave {c : Check} {σ : Control} (h : Checking c σ) :
    Stopped c (σ.exec .stopSlave) := by
  refine ⟨⟨openedByCheck_of_stopped rfl ?_, h.2⟩, rfl⟩
  intro hopen
  obtain ⟨c', hc', hopens, -⟩ := h.1 hopen
  exact ⟨c', hc', hopens⟩

/-- While the replication is stopped, a check that may open the server can do so. -/
theorem Stopped.open {c : Check} {σ : Control} (h : Stopped c σ) (hopens : c.Opens)
    {s : Statement} (hs : s = .superReadOnly false ∨ s = .readOnly false) : Stopped c (σ.exec s) := by
  have hstopped : (σ.exec s).server.slaveRunning = false := by
    rcases hs with rfl | rfl <;> exact h.2
  refine ⟨⟨openedByCheck_of_stopped hstopped ?_, h.1.2⟩, hstopped⟩
  intro _
  refine ⟨c, ?_, hopens⟩
  simp only [Control.exec, if_pos hs]
  exact h.1.2

/-- A statement that touches neither the mode nor the replication. -/
theorem Stopped.keep {c : Check} {σ : Control} (h : Stopped c σ) {s : Statement}
    (hs : s = .setServerId ∨ ∃ ip port, s = .changeMaster ip port) : Stopped c (σ.exec s) := by
  have hsame : (σ.exec s).server.superReadOnly = σ.server.superReadOnly ∧
      (σ.exec s).server.slaveRunning = false ∧ (σ.exec s).opened = σ.opened := by
    rcases hs with rfl | ⟨ip, port, rfl⟩
    · exact ⟨rfl, h.2, by simp [Control.exec]⟩
    · simp [Control.exec, Server.exec, h.2]
  refine ⟨⟨openedByCheck_of_stopped hsame.2.1 ?_, h.1.2⟩, hsame.2.1⟩
  intro hopen
  rw [hsame.1] at hopen
  obtain ⟨c', hc', hopens, -⟩ := h.1.1 hopen
  exact ⟨c', hsame.2.2.trans hc', hopens⟩

theorem Stopped.changeMaster {c : Check} {σ : Control} (h : Stopped c σ) (ip : Bytes) (port : Nat) :
    Sourced c (ip, port) (σ.exec (.changeMaster ip port)) := by
  refine ⟨h.keep (.inr ⟨ip, port, rfl⟩), ?_⟩
  simp [Control.exec, Server.exec, h.2]

/-! ### The outlines -/

/-- The assertion after `super_read_only` is on. -/
def Closed (c : Check) (σ : Control) : Prop :=
  σ.check = some c ∧ σ.server.superReadOnly = true

theorem Closed.checking {c : Check} {σ : Control} (h : Closed c σ) : Checking c σ := by
  refine ⟨?_, h.1⟩
  intro hopen
  rw [h.2] at hopen
  cases hopen

theorem stable_closed (c : Check) : Script.Stable Control.restart (Closed c) :=
  fun _ h => ⟨h.1, rfl⟩

/-- The assertion while a master with an export address is opened. -/
def Exporting (c : Check) (source : Bytes × Nat) (σ : Control) : Prop :=
  Sourced c source σ ∧ (σ.server.superReadOnly = false → σ.opened = some c)

theorem stable_exporting (c : Check) (source : Bytes × Nat) :
    Script.Stable Control.restart (Exporting c source) :=
  fun σ h => ⟨stable_sourced c source σ h.1, fun hopen => nomatch hopen⟩

theorem Sourced.open {c : Check} {source : Bytes × Nat} {σ : Control} (h : Sourced c source σ)
    (hopens : c.Opens) {s : Statement} (hs : s = .superReadOnly false ∨ s = .readOnly false) :
    Exporting c source (σ.exec s) := by
  refine ⟨⟨h.1.open hopens hs, ?_⟩, ?_⟩
  · rcases hs with rfl | rfl <;> exact h.2
  · intro _
    simp only [Control.exec, if_pos hs]
    exact h.1.1.2

theorem Exporting.startSlave {c : Check} {σ : Control}
    (h : Exporting c (exportAddress c.view.toAgentView) σ) (hopens : c.Opens)
    (hne : c.view.masterInfo.2.exportIp ≠ []) : Checking c (σ.exec .startSlave) := by
  refine ⟨?_, h.1.1.1.2⟩
  intro hopen
  refine ⟨c, ?_, hopens, fun _ => ⟨h.1.2, hne⟩⟩
  have hopened := h.2 hopen
  simpa [Control.exec] using hopened

/-- Every script keeps the property, wherever it is stopped. -/
theorem ScriptOf.outline {c : Check} {cs : List Statement} (h : ScriptOf c cs) :
    Script.Outline Control.exec Control.restart OpenedByCheck (Checking c) cs := by
  -- All scripts but the empty one begin by stopping the replication.
  have hstop : ∀ {rest}, Script.Outline Control.exec Control.restart OpenedByCheck (Stopped c) rest →
      Script.Outline Control.exec Control.restart OpenedByCheck (Checking c) (.stopSlave :: rest) :=
    fun hrest => .cons (stable_checking c) (fun _ hσ => hσ.1) (fun _ hσ => hσ.stopSlave) hrest
  have hserverId : ∀ {rest},
      Script.Outline Control.exec Control.restart OpenedByCheck (Stopped c) rest →
      Script.Outline Control.exec Control.restart OpenedByCheck (Stopped c) (.setServerId :: rest) :=
    fun hrest => .cons (stable_stopped c) (fun _ hσ => hσ.1.1) (fun _ hσ => hσ.keep (.inl rfl)) hrest
  have hchecking : Script.Outline Control.exec Control.restart OpenedByCheck (Checking c) [] :=
    .nil (stable_checking c) fun _ hσ => hσ.1
  have hstopped : Script.Outline Control.exec Control.restart OpenedByCheck (Stopped c) [] :=
    .nil (stable_stopped c) fun _ hσ => hσ.1.1
  cases h with
  | none => exact hchecking
  | stop => exact hstop (hserverId hstopped)
  | close port =>
    refine hstop (hserverId ?_)
    apply Script.Outline.cons (Q := Stopped c) (stable_stopped c) (fun _ hσ => hσ.1.1)
    · exact fun _ hσ => hσ.keep (.inr ⟨_, _, rfl⟩)
    apply Script.Outline.cons (Q := Closed c) (stable_stopped c) (fun _ hσ => hσ.1.1)
    · exact fun _ hσ => ⟨hσ.1.2, rfl⟩
    apply Script.Outline.cons (Q := Closed c) (stable_closed c) (fun _ hσ => hσ.checking.1)
    · exact fun _ hσ => ⟨hσ.1, by simp [Control.exec, Server.exec, hσ.2]⟩
    apply Script.Outline.cons (Q := Checking c) (stable_closed c) (fun _ hσ => hσ.checking.1)
    · exact fun _ hσ => Closed.checking ⟨hσ.1, hσ.2⟩
    · exact hchecking
  | opens hopens =>
    refine hstop ?_
    apply Script.Outline.cons (Q := Stopped c) (stable_stopped c) (fun _ hσ => hσ.1.1)
    · exact fun _ hσ => hσ.open hopens (.inl rfl)
    apply Script.Outline.cons (Q := Stopped c) (stable_stopped c) (fun _ hσ => hσ.1.1)
    · exact fun _ hσ => hσ.open hopens (.inr rfl)
    · exact hstopped
  | exports hopens hne =>
    refine hstop (hserverId ?_)
    apply Script.Outline.cons (Q := Sourced c (exportAddress c.view.toAgentView)) (stable_stopped c)
      (fun _ hσ => hσ.1.1)
    · exact fun _ hσ => hσ.changeMaster _ _
    apply Script.Outline.cons (Q := Exporting c (exportAddress c.view.toAgentView))
      (stable_sourced c _) (fun _ hσ => hσ.1.1.1)
    · exact fun _ hσ => hσ.open hopens (.inl rfl)
    apply Script.Outline.cons (Q := Exporting c (exportAddress c.view.toAgentView))
      (stable_exporting c _) (fun _ hσ => hσ.1.1.1.1)
    · exact fun _ hσ => hσ.1.open hopens (.inr rfl)
    apply Script.Outline.cons (Q := Checking c) (stable_exporting c _) (fun _ hσ => hσ.1.1.1.1)
    · exact fun _ hσ => hσ.startSlave hopens hne
    · exact hchecking

/-! ## Runs -/

/-- What is left of the check guards the property. -/
def ControlInv (μ : Monitored) : Prop :=
  Script.Guards Control.exec Control.restart OpenedByCheck μ.todo μ.control

/-- Without a check only a restart can come. -/
theorem OpenedByCheck.guards_nil {σ : Control} (h : OpenedByCheck σ) :
    Script.Guards Control.exec Control.restart OpenedByCheck [] σ := by
  intro n
  cases n with
  | zero => exact h
  | succ n =>
    rw [Function.iterate_succ_apply']
    exact OpenedByCheck.restart _

theorem ControlInv.step {μ μ' : Monitored} {a : ControlAction} (h : ControlInv μ)
    (hstep : controlStep μ a = some μ') : ControlInv μ' := by
  cases a with
  | check c =>
    simp only [controlStep, Option.ite_none_right_eq_some, Option.some.injEq] at hstep
    obtain ⟨-, rfl⟩ := hstep
    exact c.scriptOf.outline _ ⟨h.inv, rfl⟩
  | query effect ok =>
    obtain ⟨σ, todo⟩ := μ
    cases todo with
    | nil => cases hstep
    | cons c cs =>
      obtain ⟨hexec, hrest⟩ := Script.Guards.step h
      simp only [controlStep] at hstep
      split at hstep
      · cases hstep
        exact hrest
      · cases hstep
        apply OpenedByCheck.guards_nil
        split
        · exact hexec
        · exact h.inv
  | restart =>
    cases hstep
    exact Script.Guards.disturbed h

/-- A server that is open was opened by a check that had read that the node is the master and has the
newest GTID, or, with an export address, that the server was open already. While it is open it
replicates from nowhere but the export address of this check. -/
theorem open_only_after_check (μ : Monitored) (h : Transition.Reachable controlSystem μ) :
    μ.control.server.superReadOnly = false →
      ∃ c, μ.control.opened = some c ∧ c.Opens ∧
        (μ.control.server.slaveRunning = true →
          μ.control.server.source = some (exportAddress c.view.toAgentView) ∧
            c.view.masterInfo.2.exportIp ≠ []) := by
  have hinit : ControlInv {} := by
    apply OpenedByCheck.guards_nil
    intro hopen
    cases hopen
  have hinv : ControlInv μ :=
    Transition.ReachableBy.invariant hinit (fun _ _ _ hμ _ hstep => hμ.step hstep) h
  exact hinv.inv

/-! ### A master with an export address -/

/-- A master with an empty log that exports `10.0.0.1`. -/
def exportView : ModeView where
  isMaster := true
  answer := (.ok, [])
  newestGtid := []
  masterInfo := (.ok, { svrId := 7, exportIp := [49, 48, 46, 48, 46, 48, 46, 49] })
  enginePort := 17000
  healthy := true
  slaveStatus := 0
  relayLog := 0
  isMasterRunning := true
  superReadOnlyText := some onText
  slaveRunningText := some offText
  isSlaveConnecting := false
  isSlaveReady := true
  replicaUser := true

/-- The first attempt fails at `change master`, then MySQL restarts, and the second one succeeds. -/
def exportRun : List ControlAction :=
  [.check (.masterInit exportView), .query true true, .query true true, .query true false, .restart,
    .check (.running exportView)] ++ List.replicate 6 (.query true true)

theorem open_only_after_check_exported :
    ∃ μ, Transition.run controlSystem {} exportRun = some μ ∧
      μ.control.server =
        { superReadOnly := false, readOnly := false, slaveRunning := true,
          source := some ([49, 48, 46, 48, 46, 48, 46, 49], 17000) } ∧
      ∃ c, μ.control.opened = some c ∧ c.Opens ∧
        exportAddress c.view.toAgentView = ([49, 48, 46, 48, 46, 48, 46, 49], 17000) := by
  have hrun : (Transition.run controlSystem {} exportRun).map (fun μ => μ.control.server) =
      some { superReadOnly := false, readOnly := false, slaveRunning := true,
             source := some ([49, 48, 46, 48, 46, 48, 46, 49], 17000) } := by
    decide
  obtain ⟨μ, hμ, hserver⟩ := Option.map_eq_some_iff.mp hrun
  have hreach := Transition.reachable_of_run hμ
  obtain ⟨c, hc, hopens, hsource⟩ := open_only_after_check μ hreach (by rw [hserver])
  have haddress := (hsource (by rw [hserver])).1
  rw [hserver] at haddress
  exact ⟨μ, hμ, hserver, c, hc, hopens, (Option.some.inj haddress).symm⟩

end PhxSql.Monitor
