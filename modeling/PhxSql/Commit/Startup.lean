import PhxSql.Binlog.OwnTransactions
import PhxSql.Commit.Acknowledged
import PhxSql.Gtid.EventChunks

/-!
# Start of a MySQL server

The servers of the commit path with their binlog files. MySQL writes the events of a group to its
newest file before the group is handed over. When a server ends, its newest file can have a group
that was not accepted; its transactions are not committed, but they are in the binlog.

Before a server recovers, the plugin asks the phxbinlogsvr of its machine for the last GTID of the
server's UUID (`RealGetLastSendGTID`). The one that is the master proposes an empty value
(`FlushData`), and when this has been executed it looks the GTID up in its own table. With the answer
the plugin truncates the binlog (`truncate_while_init`); the server is ended if this fails.
-/

set_option autoImplicit false

namespace PhxSql.Commit

open PhxSql.Proto PhxSql.Lib PhxSql.Gtid PhxSql.Store PhxSql.Paxos PhxSql.Binlog

/-! ## The last GTID -/

/-- `DataManager::GetLastSendGTID`, with `EventStorage::GetLastGTIDByGTID`. -/
def getLastSendGTID (s : EventStorage) (uuid : Bytes) : Bytes :=
  getLastestGTIDByGTID s.uuidHandler uuid

section LastGtid

variable (cx : SendCodecs) (env : Nat → LocalEnv)

/-- `EventAgent::FlushData` of the node `own` up to the proposal. -/
def flushData (own : Nat) : Except Int Bytes :=
  match cx.paxosEventData.serialize { svrid := own, currentGtid := [] } with
  | none => .error RetCode.paxosBufferFail.value
  | some sendBuffer => .ok sendBuffer

/-- `PhxBinlogSvrLogic::RealGetLastSendGTID` on the node `own`, if its empty value is the instance
`i` and it has executed a number of instances when it looks the GTID up. -/
def realGetLastSendGTID (own : Nat) (chosen : List Entry) (i executed : Nat) (uuid : Bytes) :
    Option Bytes :=
  match flushData cx own, chosen[i]? with
  | .ok value, some e =>
    let r := (executeAll cx.toCodecs (env own) (chosen.take i)).2
    let ret := paxosSend (.chosen (execute cx.toCodecs (env own) i e r).1.value)
    -- The proposal returns when the instance has been executed.
    if e.sm = .event ∧ e.value = value ∧ ret = 0 ∧ i < executed then
      some (getLastSendGTID (executeAll cx.toCodecs (env own) (chosen.take executed)).2.store uuid)
    else none
  | _, _ => none

end LastGtid

/-- The environment of a start with the answer of phxbinlogsvr; `Gtid::parse` reads the number. -/
def answered (init : InitEnv) (gtid : Bytes) : InitEnv :=
  { init with
    answerRet := 0
    answer := if gtid = [] then none else some (parseGTID gtid).2 }

/-! ## The files -/

/-- MySQL writes events to the newest file. -/
def writeEvents (st : BinlogState) (events : List BinlogEvent) : Option BinlogState :=
  st.index.getLast?.map fun name =>
    { st with files := Function.update st.files name (st.files name ++ events) }

/-- MySQL opens a new file. -/
def openFile (st : BinlogState) (name : Bytes) : Option BinlogState :=
  if name ∈ st.index then none
  else
    some { st with
      files := Function.update st.files name [.formatDescription, .previousGtids]
      index := st.index ++ [name] }

/-- The GTIDs that `ParseEventList` finds in the bytes of a group. -/
def bufferGtids (buffer : Bytes) : List (Bytes × Nat) :=
  ((gtidList (parseEventList buffer).2).filter fun g => g ≠ []).map parseGTID

/-- The bytes of a group are those of these events, and MySQL has assigned their GTIDs: on a server
that accepts writes they have its UUID and numbers above all that are in its binlog; events that
were replicated have other UUIDs. -/
def Assigned (uuid : Bytes) (readOnly : Bool) (st : BinlogState) (buffer : Bytes)
    (events : List BinlogEvent) : Prop :=
  (parseEventList buffer).1 = .ok ∧
    (gtidList (parseEventList buffer).2).filter (fun g => g ≠ []) =
      (gtids events).map (fun g => genGTID g.1 g.2) ∧
    (∀ g ∈ gtids events, colon ∉ g.1 ∧ g.2 < 2 ^ 64 ∧ (g.1 = uuid ↔ readOnly = false)) ∧
    (0 :: (binlogNumbers uuid st ++ numbersOf uuid (gtids events))).Pairwise (· < ·)

instance (uuid : Bytes) (readOnly : Bool) (st : BinlogState) (buffer : Bytes)
    (events : List BinlogEvent) : Decidable (Assigned uuid readOnly st buffer events) :=
  inferInstanceAs (Decidable (_ ∧ _ ∧ _ ∧ _))

/-! ## The system -/

/-- All servers with their binlogs. A server that is being started has asked phxbinlogsvr when this
number of instances was chosen. -/
structure Site where
  cluster : Cluster := {}
  binlog : Nat → BinlogState := fun _ => { files := fun _ => [], index := [] }
  asked : Nat → Option Nat := fun _ => none

/-- A step of the commit path that does not write the binlog; MySQL writes a group to the newest
file and hands it over; it opens a file; a new process of a server that has ended asks for the last
GTID; the answer comes from the node `own`, and the binlog is truncated. -/
inductive SiteAction
  | commit (a : CommitAction)
  | flush (n : Nat) (buffer : Bytes) (events : List BinlogEvent)
  | rotate (n : Nat) (name : Bytes)
  | ask (n : Nat)
  | start (n own i executed : Nat) (init : InitEnv)

/-- The steps that have nothing to do with a binlog. -/
def CommitAction.leavesBinlog : CommitAction → Bool
  | .flush _ _ => false
  | .restart _ _ => false
  | .forget _ => false
  | _ => true

variable (cx : SendCodecs) (env : Nat → LocalEnv) (uuid : Nat → Bytes)

def siteStep (σ : Site) : SiteAction → Option Site
  | .commit a =>
    if a.leavesBinlog then
      (commitStep cx env uuid σ.cluster a).map fun cluster => { σ with cluster := cluster }
    else none
  | .flush n buffer events =>
    match commitStep cx env uuid σ.cluster (.flush n buffer), writeEvents (σ.binlog n) events with
    | some cluster, some st =>
      some { σ with cluster := cluster, binlog := Function.update σ.binlog n st }
    | _, _ => none
  | .rotate n name =>
    if (σ.cluster.mysqld n).exited ∨ (σ.cluster.mysqld n).sending.isSome then none
    else
      (openFile (σ.binlog n) name).map fun st =>
        { σ with binlog := Function.update σ.binlog n st }
  | .ask n =>
    if (σ.cluster.mysqld n).exited then
      (commitStep cx env uuid σ.cluster (.forget n)).map fun cluster =>
        { σ with
          cluster := cluster
          asked := Function.update σ.asked n (some σ.cluster.chosen.length) }
    else none
  | .start n own i executed init =>
    match σ.asked n, realGetLastSendGTID cx env own σ.cluster.chosen i executed (uuid n) with
    | some asked, some gtid =>
      if i < asked then none
      else
        let done := truncateWhileInit (answered init gtid) (uuid n)
          { σ.binlog n with lastGtidInBinlog := [] }
        let σ' : Site :=
          { σ with
            binlog := Function.update σ.binlog n done.2
            asked := Function.update σ.asked n none }
        -- `repl_phx_report_binlog_before_recovery` ends the process unless the code is 0.
        if done.1 = 0 then
          (commitStep cx env uuid σ.cluster (.restart n done.2.lastGtidInBinlog)).map fun cluster =>
            { σ' with cluster := cluster }
        else some σ'
    | _, _ => none

def siteSystem : Transition.System Site SiteAction where
  init := {}
  step := siteStep cx env uuid

/-- The conditions of the commit path; MySQL assigns GTIDs; nothing that a server has proposed is
underway when it is started. -/
def Orderly (σ : Site) : SiteAction → Prop
  | .commit a => Fresh cx uuid σ.cluster a
  | .flush n buffer events => Fresh cx uuid σ.cluster (.flush n buffer) ∧
      Assigned (uuid n) (σ.cluster.mysqld n).superReadOnly (σ.binlog n) buffer events
  | .ask n => Fresh cx uuid σ.cluster (.forget n)
  | _ => True

instance (σ : Site) (a : SiteAction) : Decidable (Orderly cx uuid σ a) :=
  match a with
  | .commit a => inferInstanceAs (Decidable (Fresh cx uuid σ.cluster a))
  | .flush _ _ _ => inferInstanceAs (Decidable (_ ∧ _))
  | .rotate _ _ => .isTrue trivial
  | .ask n => inferInstanceAs (Decidable (Fresh cx uuid σ.cluster (.forget n)))
  | .start _ _ _ _ _ => .isTrue trivial

end PhxSql.Commit
