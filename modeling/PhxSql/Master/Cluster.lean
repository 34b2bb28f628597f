import PhxSql.Lib.Transition
import PhxSql.Master.MasterStorage
import Mathlib.Logic.Function.Basic

/-!
# A cluster of nodes that share one log of master proposals

Every node holds its own copy of the master record and executes the chosen instances in order, each
at its own pace. All nodes read one clock. A proposal goes through the steps of the source as
separate actions, so that any other action can fall between them: the local record is copied, the
lease is checked on the copy, the message is stamped and sent, it is chosen (any number of times: a
resend may be chosen again), and each node executes it later.

A node is named by its server id, which is positive: `svr_id` 0 marks a record without a master. An
event instance does not touch the master record; it is in the log because the checkpoint header that
`EventStorage` writes carries the id of an event instance. `restart` replaces the record of a node
by the one of such a header and executes again from the instance after it.
-/

set_option autoImplicit false

namespace PhxSql.Master

open PhxSql.Proto PhxSql.Lib.Transition

/-- The settings of the nodes: `GetMasterLeaseTime` and `GetMySQLPort`. -/
structure Config where
  leaseTime : Nat → Nat
  port : Nat → Nat

/-- Leases of twenty seconds on every node. -/
def Config.twentySeconds : Config where
  leaseTime _ := 20
  port _ := 3306

/-- A call of `MasterAgent::SetMaster(info)` in progress at `node`; `base` is the local record that
was copied and `checked` says that the lease check has passed. -/
structure Request where
  node : Nat
  base : MasterInfo
  info : MasterInfo
  checked : Bool := false
  deriving DecidableEq, Repr

/-- A message handed to paxos, with the local record it was built from. -/
structure Proposal where
  value : MasterInfo
  base : MasterInfo
  deriving DecidableEq, Repr

/-- A chosen value: a master proposal, or a value of the event state machine. -/
inductive Chosen
  | master (p : Proposal)
  | event
  deriving DecidableEq, Repr

structure Instance where
  id : Nat
  chosen : Chosen
  deriving DecidableEq, Repr

/-- One node: its master record and the number of log entries it has executed. -/
structure Node where
  master : MasterInfo := {}
  applied : Nat := 0
  deriving DecidableEq, Repr

/-- What a checkpoint header keeps of the node that wrote it: the id of the last stored event and
the master record. -/
structure Header where
  node : Nat
  instanceId : Nat
  master : MasterInfo
  deriving DecidableEq, Repr

structure Cluster where
  now : Nat := 0
  nodes : Nat → Node := fun _ => {}
  requests : List Request := []
  proposals : List Proposal := []
  log : List Instance := []
  headers : List Header := []

inductive Action
  /-- The clock moves on by `d` seconds. -/
  | tick (d : Nat)
  /-- `MasterAgent::SetMaster(own ip)` and `SetExportIP` copy the local record. -/
  | setMaster (n : Nat) (exportAddr : Option (Bytes × Nat))
  /-- `MasterAgent::SetMySqlAdminInfo` copies the local record and appends an account. -/
  | setMySqlAdminInfo (n : Nat) (user : UserInfo)
  | setMySqlReplicaInfo (n : Nat) (user : UserInfo)
  /-- The lease check of the request at this place. -/
  | leaseCheck (i : Nat)
  /-- The request at this place is stamped and sent. -/
  | sendMasterInfo (i : Nat)
  /-- The master check of `ReplicationSlave::CheckIsMaster` passes at `n`. -/
  | checkIsMaster (n : Nat)
  /-- `MasterAgent::MasterNotify` sends the local record as it is. -/
  | masterNotify (n : Nat)
  /-- The proposal at this place is chosen. -/
  | choose (i id : Nat)
  | chooseEvent (id : Nat)
  /-- Node `n` executes its next instance; `rand` is the value of `GetExtLeaseTime`. -/
  | execute (n rand : Nat)
  /-- Node `n` writes a checkpoint header that carries the event instance `id`. -/
  | writeHeader (n id : Nat)
  /-- Node `n` restarts from the header at this place. -/
  | restart (n h rand : Nat)
  deriving DecidableEq, Repr

/-- The node whose record an action copies for a `SetMaster` request. -/
def Action.requester : Action → Option Nat
  | .setMaster n _ => some n
  | .setMySqlAdminInfo n _ => some n
  | .setMySqlReplicaInfo n _ => some n
  | _ => none

/-- Whether an instance id may be chosen next: ids grow, and the largest `uint64` is not an id. -/
def freshId (log : List Instance) (id : Nat) : Bool :=
  log.all (fun e => e.id < id) && id + 1 < 2 ^ 64

/-- `MasterExecuter::SMExecute` on a chosen value. -/
def executeInstance (now rand own : Nat) (e : Instance) (master : MasterInfo) :
    RetCode × MasterInfo :=
  match e.chosen with
  | .master p => smExecute now rand own e.id (received p.value) master
  | .event => (.ok, master)

/-- The node after it executed the instance `e`. -/
def executeNode (c : Cluster) (n rand : Nat) (e : Instance) : Node :=
  { master := (executeInstance c.now rand n e (c.nodes n).master).2
    applied := (c.nodes n).applied + 1 }

/-- How many entries of the log a checkpoint with this instance id covers. -/
def coveredBy (log : List Instance) (id : Nat) : Nat :=
  (log.takeWhile fun e => e.id ≤ id).length

/-- The node after loading a header: `StorageManager::LoadFromCheckPoint` on a fresh process. -/
def restartNode (cfg : Config) (c : Cluster) (n rand : Nat) (h : Header) : Node :=
  { master := loadFromCheckPoint c.now (cfg.leaseTime n) rand {} h.master
    applied := coveredBy c.log h.instanceId }

/-- The step function of the cluster. -/
def step (cfg : Config) (c : Cluster) : Action → Option Cluster
  | .tick d => some { c with now := c.now + d }
  | .setMaster n exportAddr =>
    if 0 < n then
      let base := (c.nodes n).master
      some { c with requests := c.requests ++
        [{ node := n, base := base, info := setMasterInfo (cfg.port n) n exportAddr base }] }
    else none
  | .setMySqlAdminInfo n user =>
    let base := (c.nodes n).master
    -- The source checks the copy after it was made; a copy that is unexpired then is so now.
    if 0 < n ∧ user.username ≠ [] ∧ isMasterInfo c.now n base then
      some { c with requests := c.requests ++
        [{ node := n, base := base, info := (setMySqlAdminInfo c.now n .ok user base).2 }] }
    else none
  | .setMySqlReplicaInfo n user =>
    let base := (c.nodes n).master
    if 0 < n ∧ user.username ≠ [] ∧ isMasterInfo c.now n base then
      some { c with requests := c.requests ++
        [{ node := n, base := base, info := (setMySqlReplicaInfo c.now n .ok user base).2 }] }
    else none
  | .leaseCheck i =>
    match c.requests[i]? with
    | some r =>
      if leaseCheck c.now r.node (c.nodes r.node).master r.info then
        some { c with requests := c.requests.set i { r with checked := true } }
      else none
    | none => none
  | .sendMasterInfo i =>
    match c.requests[i]? with
    | some r =>
      if r.checked then
        some { c with
          requests := c.requests.eraseIdx i
          proposals := c.proposals ++
            [{ value := stamp c.now (cfg.leaseTime r.node) r.info, base := r.base }] }
      else none
    | none => none
  | .checkIsMaster n => if isMaster c.now n (c.nodes n).master then some c else none
  | .masterNotify n =>
    let base := (c.nodes n).master
    some { c with proposals := c.proposals ++ [{ value := base, base := base }] }
  | .choose i id =>
    match c.proposals[i]? with
    | some p =>
      if freshId c.log id then some { c with log := c.log ++ [{ id := id, chosen := .master p }] }
      else none
    | none => none
  | .chooseEvent id =>
    if freshId c.log id then some { c with log := c.log ++ [{ id := id, chosen := .event }] }
    else none
  | .execute n rand =>
    match c.log[(c.nodes n).applied]? with
    | some e =>
      if rand < 10 then
        some { c with nodes := Function.update c.nodes n (executeNode c n rand e) }
      else none
    | none => none
  | .writeHeader n id =>
    if (c.log.take (c.nodes n).applied).any (fun e => e.id == id && e.chosen == .event) then
      some { c with headers := c.headers ++
        [{ node := n, instanceId := id, master := (c.nodes n).master }] }
    else none
  | .restart n i rand =>
    match c.headers[i]? with
    | some h =>
      if h.node = n then
        some { c with
          nodes := Function.update c.nodes n (restartNode cfg c n rand h)
          requests := c.requests.filter fun r => r.node ≠ n }
      else none
    | none => none

/-- The cluster as a transition system that starts with empty nodes. -/
def system (cfg : Config) : System Cluster Action where
  init := {}
  step := step cfg

/-- `IsMaster()` at a node of the cluster. -/
def Cluster.isMasterAt (c : Cluster) (n : Nat) : Bool :=
  isMaster c.now n (c.nodes n).master

/-! ## What one step can do -/

/-- What every message of a `SetMaster` request keeps of the record it was copied from. -/
structure Derived (n : Nat) (base info : MasterInfo) : Prop where
  version : info.version = base.version
  svrId : info.svrId = n
  expireTime : info.expireTime = base.expireTime
  admin : base.adminUserinfo <+: info.adminUserinfo
  replica : base.replicaUserinfo <+: info.replicaUserinfo

theorem derived_setMasterInfo (port n : Nat) (exportAddr : Option (Bytes × Nat))
    (base : MasterInfo) : Derived n base (setMasterInfo port n exportAddr base) := by
  cases exportAddr with
  | none => exact ⟨rfl, rfl, rfl, List.prefix_rfl, List.prefix_rfl⟩
  | some addr => exact ⟨rfl, rfl, rfl, List.prefix_rfl, List.prefix_rfl⟩

theorem derived_setMySqlAdminInfo {now n : Nat} {user : UserInfo} {base : MasterInfo}
    (h : isMasterInfo now n base = true) :
    Derived n base (setMySqlAdminInfo now n .ok user base).2 := by
  have hsvr := (isMasterInfo_iff.mp h).1
  simp only [setMySqlAdminInfo, h, Bool.not_true, Bool.false_eq_true, if_false, if_true]
  exact ⟨rfl, hsvr, rfl, List.prefix_append .., List.prefix_rfl⟩

theorem derived_setMySqlReplicaInfo {now n : Nat} {user : UserInfo} {base : MasterInfo}
    (h : isMasterInfo now n base = true) :
    Derived n base (setMySqlReplicaInfo now n .ok user base).2 := by
  have hsvr := (isMasterInfo_iff.mp h).1
  simp only [setMySqlReplicaInfo, h, Bool.not_true, Bool.false_eq_true, if_false, if_true]
  exact ⟨rfl, hsvr, rfl, List.prefix_rfl, List.prefix_append ..⟩

/-- The step function as a relation, with the three kinds of request under one constructor. -/
inductive Trans (cfg : Config) (c : Cluster) : Action → Cluster → Prop
  | tick (d : Nat) : Trans cfg c (.tick d) { c with now := c.now + d }
  | request {a : Action} (r : Request) (ha : a.requester = some r.node) (hpos : 0 < r.node)
      (hbase : r.base = (c.nodes r.node).master) (hchecked : r.checked = false)
      (hinfo : Derived r.node r.base r.info) :
      Trans cfg c a { c with requests := c.requests ++ [r] }
  | leaseCheck {i : Nat} (r : Request) (hget : c.requests[i]? = some r)
      (hcheck : Master.leaseCheck c.now r.node (c.nodes r.node).master r.info = true) :
      Trans cfg c (.leaseCheck i)
        { c with requests := c.requests.set i { r with checked := true } }
  | send {i : Nat} (r : Request) (hget : c.requests[i]? = some r) (hchecked : r.checked = true) :
      Trans cfg c (.sendMasterInfo i)
        { c with
          requests := c.requests.eraseIdx i
          proposals := c.proposals ++
            [{ value := stamp c.now (cfg.leaseTime r.node) r.info, base := r.base }] }
  | checkIsMaster {n : Nat} : Trans cfg c (.checkIsMaster n) c
  | notify (n : Nat) :
      Trans cfg c (.masterNotify n)
        { c with proposals := c.proposals ++
          [{ value := (c.nodes n).master, base := (c.nodes n).master }] }
  | choose {i id : Nat} (p : Proposal) (hget : c.proposals[i]? = some p)
      (hfresh : freshId c.log id = true) :
      Trans cfg c (.choose i id) { c with log := c.log ++ [{ id := id, chosen := .master p }] }
  | chooseEvent {id : Nat} (hfresh : freshId c.log id = true) :
      Trans cfg c (.chooseEvent id) { c with log := c.log ++ [{ id := id, chosen := .event }] }
  | execute {n rand : Nat} (e : Instance) (hget : c.log[(c.nodes n).applied]? = some e)
      (hext : rand < 10) :
      Trans cfg c (.execute n rand)
        { c with nodes := Function.update c.nodes n (executeNode c n rand e) }
  | writeHeader {n id : Nat}
      (hevent : ∃ e ∈ c.log.take (c.nodes n).applied, e.id = id ∧ e.chosen = .event) :
      Trans cfg c (.writeHeader n id)
        { c with headers := c.headers ++
          [{ node := n, instanceId := id, master := (c.nodes n).master }] }
  | restart {n i rand : Nat} (h : Header) (hget : c.headers[i]? = some h) (hnode : h.node = n) :
      Trans cfg c (.restart n i rand)
        { c with
          nodes := Function.update c.nodes n (restartNode cfg c n rand h)
          requests := c.requests.filter fun r => r.node ≠ n }

/-- Every step of the cluster is one of the transitions. -/
theorem trans_of_step {cfg : Config} {c c' : Cluster} {a : Action}
    (h : step cfg c a = some c') : Trans cfg c a c' := by
  -- The guard of each action gives what its transition asks for.
  cases a with
  | tick d =>
    cases h
    exact .tick d
  | setMaster n exportAddr =>
    simp only [step, Option.ite_none_right_eq_some, Option.some.injEq] at h
    obtain ⟨hpos, rfl⟩ := h
    exact .request _ rfl hpos rfl rfl (derived_setMasterInfo ..)
  | setMySqlAdminInfo n user =>
    simp only [step, Option.ite_none_right_eq_some, Option.some.injEq] at h
    obtain ⟨⟨hpos, -, hmaster⟩, rfl⟩ := h
    exact .request _ rfl hpos rfl rfl (derived_setMySqlAdminInfo hmaster)
  | setMySqlReplicaInfo n user =>
    simp only [step, Option.ite_none_right_eq_some, Option.some.injEq] at h
    obtain ⟨⟨hpos, -, hmaster⟩, rfl⟩ := h
    exact .request _ rfl hpos rfl rfl (derived_setMySqlReplicaInfo hmaster)
  | leaseCheck i =>
    cases hget : c.requests[i]? with
    | none => simp [step, hget] at h
    | some r =>
      simp only [step, hget, Option.ite_none_right_eq_some, Option.some.injEq] at h
      obtain ⟨hcheck, rfl⟩ := h
      exact .leaseCheck r hget hcheck
  | sendMasterInfo i =>
    cases hget : c.requests[i]? with
    | none => simp [step, hget] at h
    | some r =>
      simp only [step, hget, Option.ite_none_right_eq_some, Option.some.injEq] at h
      obtain ⟨hchecked, rfl⟩ := h
      exact .send r hget hchecked
  | checkIsMaster n =>
    simp only [step, Option.ite_none_right_eq_some, Option.some.injEq] at h
    obtain ⟨-, rfl⟩ := h
    exact .checkIsMaster
  | masterNotify n =>
    cases h
    exact .notify n
  | choose i id =>
    cases hget : c.proposals[i]? with
    | none => simp [step, hget] at h
    | some p =>
      simp only [step, hget, Option.ite_none_right_eq_some, Option.some.injEq] at h
      obtain ⟨hfresh, rfl⟩ := h
      exact .choose p hget hfresh
  | chooseEvent id =>
    simp only [step, Option.ite_none_right_eq_some, Option.some.injEq] at h
    obtain ⟨hfresh, rfl⟩ := h
    exact .chooseEvent hfresh
  | execute n rand =>
    cases hget : c.log[(c.nodes n).applied]? with
    | none => simp [step, hget] at h
    | some e =>
      simp only [step, hget, Option.ite_none_right_eq_some, Option.some.injEq] at h
      obtain ⟨hext, rfl⟩ := h
      exact .execute e hget hext
  | writeHeader n id =>
    simp only [step, Option.ite_none_right_eq_some, Option.some.injEq, List.any_eq_true,
      Bool.and_eq_true, beq_iff_eq] at h
    obtain ⟨hevent, rfl⟩ := h
    exact .writeHeader hevent
  | restart n i rand =>
    cases hget : c.headers[i]? with
    | none => simp [step, hget] at h
    | some hd =>
      simp only [step, hget, Option.ite_none_right_eq_some, Option.some.injEq] at h
      obtain ⟨hnode, rfl⟩ := h
      exact .restart hd hget hnode

end PhxSql.Master
