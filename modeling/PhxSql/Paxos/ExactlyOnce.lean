import PhxSql.Paxos.ReplicatedLog
import PhxSql.Proto.Wire
import Mathlib.Data.List.Chain
import Mathlib.Logic.Relation

/-!
# Exactly-once storage under resends

The plugin resends a value until it gets an answer, so a value can be chosen any number of times. A
value is accepted only if its `current_gtid` is the newest GTID, so the accepted values form a chain
of links from `current_gtid` to `event_gtid`. If the links have no cycle, no GTID occurs twice in
the chain, although a resend is compared with the newest event only.
-/

set_option autoImplicit false

namespace PhxSql.Paxos

open PhxSql.Proto PhxSql.Store PhxSql.Lib

/-! ## The values of a run -/

variable (cx : Codecs)

/-- The value of an instance that carries an event. -/
def carried (e : Entry) : Option PaxosEventData :=
  match e.sm with
  | .event => (cx.paxosEventData.parse e.value).filter carriesEvent
  | .master => none

def carriedValues (es : List Entry) : List PaxosEventData :=
  es.filterMap (carried cx)

/-- Some value says that the event with the second GTID follows the one with the first. -/
def Link (values : List PaxosEventData) (current event : Bytes) : Prop :=
  ∃ v ∈ values, v.currentGtid = current ∧ v.eventGtid = event

/-- The second record follows the first one according to every value with its GTID. -/
def Follows (values : List PaxosEventData) (r r' : EventData) : Prop :=
  (∃ v ∈ values, v.eventGtid = r'.gtid) ∧
    ∀ v ∈ values, v.eventGtid = r'.gtid → v.currentGtid = r.gtid

/-- Chosen instances in which a GTID always comes with the same event, and protobuf serialises every
event. A resend may have another checksum. -/
structure Resends (es : List Entry) : Prop where
  increasing : es.Pairwise fun e e' => e.instanceId < e'.instanceId
  resent : ∀ v ∈ carriedValues cx es, ∀ v' ∈ carriedValues cx es,
    v.eventGtid = v'.eventGtid → v.buffer = v'.buffer ∧ v.currentGtid = v'.currentGtid
  acyclic : ∀ gtid, ¬ Relation.TransGen (Link (carriedValues cx es)) gtid gtid
  serializes : ∀ e ∈ es, ∀ v, carried cx e = some v →
    (cx.eventData.serialize (savedEvent e.instanceId.toNat v)).isSome = true

variable {cx}

theorem carried_eq_some_iff {e : Entry} {v : PaxosEventData} :
    carried cx e = some v ↔
      e.sm = .event ∧ cx.paxosEventData.parse e.value = some v ∧ carriesEvent v = true := by
  unfold carried
  cases e.sm with
  | event => simp [Option.filter_eq_some_iff]
  | master => simp

theorem mem_carriedValues {es : List Entry} {v : PaxosEventData} :
    v ∈ carriedValues cx es ↔ ∃ e ∈ es, carried cx e = some v := by
  simp [carriedValues]

/-! ## The accepted events are a chain -/

variable (cx) in
/-- What holds of the log after these instances. -/
structure AcceptedInv (es : List Entry) (l : ReplicatedLog) : Prop where
  chain : l.accepted.IsChain fun r r' => Link (carriedValues cx es) r.gtid r'.gtid
  saved : ∀ r ∈ l.accepted, ∃ e ∈ es, ∃ v, carried cx e = some v ∧
    r = savedEvent e.instanceId.toNat v
  mastered : 0 < l.master.svrId → es ≠ []

/-- More instances do no harm. -/
theorem AcceptedInv.append {es : List Entry} {l : ReplicatedLog} (h : AcceptedInv cx es l)
    (e : Entry) : AcceptedInv cx (es ++ [e]) l where
  chain := by
    refine h.chain.imp ?_
    rintro r r' ⟨v, hv, hlink⟩
    refine ⟨v, ?_, hlink⟩
    simp only [carriedValues, List.filterMap_append]
    exact List.mem_append_left _ hv
  saved := by
    intro r hr
    obtain ⟨e', he', hsaved⟩ := h.saved r hr
    exact ⟨e', List.mem_append_left _ he', hsaved⟩
  mastered := by simp

theorem AcceptedInv.gtid_ne_nil {es : List Entry} {l : ReplicatedLog} (h : AcceptedInv cx es l)
    {r : EventData} (hr : r ∈ l.accepted) : r.gtid ≠ [] := by
  obtain ⟨e, -, v, hv, rfl⟩ := h.saved r hr
  obtain ⟨-, -, hcarries⟩ := carried_eq_some_iff.mp hv
  exact (carriesEvent_iff.mp hcarries).2

theorem ReplicatedLog.newest_of_getLast? {l : ReplicatedLog} {r : EventData}
    (h : l.accepted.getLast? = some r) : l.newest = dataInfo {} r := by
  simp [ReplicatedLog.newest, h]

/-- One instance extends the chain by at most one link. -/
theorem AcceptedInv.execute {es : List Entry} {l : ReplicatedLog} (h : AcceptedInv cx es l)
    (e : Entry) : AcceptedInv cx (es ++ [e]) (l.execute cx e).2 := by
  have hsame := h.append e
  cases hsm : e.sm with
  | master =>
    simp only [ReplicatedLog.execute, hsm]
    exact ⟨hsame.chain, hsame.saved, by simp⟩
  | event =>
    simp only [ReplicatedLog.execute, hsm]
    cases hverdict : eventVerdict l.master l.newest (cx.paxosEventData.parse e.value) with
    | error code => exact hsame
    | ok v =>
      obtain ⟨hparse, hcarries, hcheck⟩ := eventVerdict_ok_iff.mp hverdict
      have hv : carried cx e = some v := carried_eq_some_iff.mpr ⟨hsm, hparse, hcarries⟩
      simp only [ReplicatedLog.save]
      split
      · exact hsame
      · refine ⟨?_, ?_, by simp⟩
        · refine hsame.chain.append (List.isChain_singleton _) ?_
          intro r hr r' hr'
          have hmem : r ∈ l.accepted := List.mem_of_getLast? hr
          have hnewest : l.newest.gtid = r.gtid := by
            rw [ReplicatedLog.newest_of_getLast? hr]
            rfl
          -- The log is not empty, so the value has passed the comparison with the newest GTID.
          rcases (checkEvent_ok_iff.mp hcheck).2.1 with hempty | hcurrent
          · exact absurd (hnewest.symm.trans hempty) (h.gtid_ne_nil hmem)
          · cases hr'
            refine ⟨v, mem_carriedValues.mpr ⟨e, by simp, hv⟩, ?_, rfl⟩
            rw [hcurrent, hnewest]
        · intro r hr
          rcases List.mem_append.mp hr with hr | hr
          · exact hsame.saved r hr
          · exact ⟨e, by simp, v, hv, List.mem_singleton.mp hr⟩

theorem acceptedInv_executeAll (es : List Entry) :
    AcceptedInv cx es (ReplicatedLog.executeAll cx es).2 := by
  induction es using List.reverseRecOn with
  | nil =>
    refine ⟨.nil, ?_, ?_⟩
    · simp [ReplicatedLog.executeAll, ReplicatedLog.executeFrom]
    · intro h
      exact absurd h (Nat.lt_irrefl 0)
  | append_singleton es e ih =>
    rw [ReplicatedLog.executeAll_concat]
    exact ih.execute e

/-! ## No event is accepted twice -/

/-- A chain of a relation without cycles has no repetition. -/
theorem nodup_of_isChain {α : Type} {R : α → α → Prop} (hacyclic : ∀ a, ¬ Relation.TransGen R a a)
    {l : List α} (h : l.IsChain R) : l.Nodup := by
  have htrans : l.IsChain (Relation.TransGen R) := h.imp fun _ _ hab => .single hab
  refine htrans.pairwise.imp ?_
  rintro a b hab rfl
  exact hacyclic a hab

/-- The accepted instance ids are those of executed instances, so a new one is larger. -/
theorem AcceptedInv.newest_lt {es : List Entry} {l : ReplicatedLog} (h : AcceptedInv cx es l)
    {e : Entry} (hlt : ∀ e' ∈ es, e'.instanceId < e.instanceId) (hmaster : 0 < l.master.svrId) :
    l.newest.instanceId < e.instanceId.toNat := by
  cases hlast : l.accepted.getLast? with
  | some r =>
    obtain ⟨e', he', v, -, rfl⟩ := h.saved r (List.mem_of_getLast? hlast)
    rw [ReplicatedLog.newest_of_getLast? hlast]
    exact UInt64.lt_iff_toNat_lt.mp (hlt e' he')
  | none =>
    -- No event yet, but the instance that made a server the master has an id as well.
    obtain ⟨e', he'⟩ := List.exists_mem_of_ne_nil es (h.mastered hmaster)
    have hnew : l.newest.instanceId = 0 := by simp [ReplicatedLog.newest, hlast]
    have hid := UInt64.lt_iff_toNat_lt.mp (hlt e' he')
    omega

theorem mem_accepted_of_newest {l : ReplicatedLog} (h : l.newest.gtid ≠ []) :
    l.newest.gtid ∈ l.accepted.map EventData.gtid := by
  cases hlast : l.accepted.getLast? with
  | none => simp [ReplicatedLog.newest, hlast] at h
  | some r =>
    rw [ReplicatedLog.newest_of_getLast? hlast]
    exact List.mem_map_of_mem (List.mem_of_getLast? hlast)

/-- After a success or `EVENT_EXIST` the event of the value is in the log. -/
theorem AcceptedInv.mem_of_code {es : List Entry} {l : ReplicatedLog} (h : AcceptedInv cx es l)
    {e : Entry} (hlt : ∀ e' ∈ es, e'.instanceId < e.instanceId) {v : PaxosEventData}
    (hv : carried cx e = some v)
    (hcode : (l.execute cx e).1 = .ok ∨ (l.execute cx e).1 = .eventExist) :
    v.eventGtid ∈ (l.execute cx e).2.accepted.map EventData.gtid := by
  obtain ⟨hsm, hparse, hcarries⟩ := carried_eq_some_iff.mp hv
  by_cases hcheck : checkEvent l.master l.newest v = .ok
  · have hmaster := (checkEvent_ok_iff.mp hcheck).1.1
    have hnew := Nat.not_le.mpr (h.newest_lt hlt hmaster)
    simp [ReplicatedLog.execute, hsm, hparse, eventVerdict, hcarries, hcheck, ReplicatedLog.save,
      hnew, savedEvent]
  · have hexec : l.execute cx e = (checkEvent l.master l.newest v, l) := by
      simp [ReplicatedLog.execute, hsm, hparse, eventVerdict, hcarries, hcheck]
    rw [hexec] at hcode ⊢
    rcases hcode with hok | hexist
    · exact absurd hok hcheck
    · obtain ⟨hne, hgtid⟩ := checkEvent_eq_eventExist hexist
      rw [hgtid]
      exact mem_accepted_of_newest hne

/-! ## The stored events -/

theorem Resends.of_append {es es' : List Entry} (h : Resends cx (es ++ es')) : Resends cx es := by
  have hsub : ∀ v ∈ carriedValues cx es, v ∈ carriedValues cx (es ++ es') := by
    intro v hv
    simp only [carriedValues, List.filterMap_append]
    exact List.mem_append_left _ hv
  refine ⟨(List.pairwise_append.mp h.increasing).1, ?_, ?_, ?_⟩
  · intro v hv v' hv'
    exact h.resent v (hsub v hv) v' (hsub v' hv')
  · intro gtid hcycle
    refine h.acyclic gtid (Relation.TransGen.mono ?_ _ _ hcycle)
    rintro a b ⟨v, hv, hlink⟩
    exact ⟨v, hsub v hv, hlink⟩
  · intro e he
    exact h.serializes e (List.mem_append_left _ he)

/-- Every accepted event reaches the files. -/
theorem Resends.storedEvents_eq {es : List Entry} (h : Resends cx es) (env : LocalEnv) :
    storedEvents cx (executeAll cx env es).2.store = (ReplicatedLog.executeAll cx es).2.accepted := by
  rw [(executeAll_refines env es).2.storedEvents_eq, ReplicatedLog.written, List.filter_eq_self]
  intro r hr
  obtain ⟨e, he, v, hv, rfl⟩ := (acceptedInv_executeAll es).saved r hr
  exact h.serializes e he v hv

/-- Under resends every event is stored at most once, each one after the event its value names, and
a value is answered with success or `EVENT_EXIST` only if its event is stored. -/
theorem events_stored_exactly_once (cx : Codecs) (env : LocalEnv) (es : List Entry)
    (h : Resends cx es) :
    ((storedEvents cx (executeAll cx env es).2.store).map EventData.gtid).Nodup ∧
      (storedEvents cx (executeAll cx env es).2.store).IsChain (Follows (carriedValues cx es)) ∧
      ∀ (before : List Entry) (e : Entry) (after : List Entry) (v : PaxosEventData),
        es = before ++ e :: after → carried cx e = some v →
        ((execute cx env before.length e (executeAll cx env before).2).1 = .ok ∨
          (execute cx env before.length e (executeAll cx env before).2).1 = .eventExist) →
        v.eventGtid ∈
          (storedEvents cx (executeAll cx env (before ++ [e])).2.store).map EventData.gtid := by
  have hinv : AcceptedInv cx es (ReplicatedLog.executeAll cx es).2 := acceptedInv_executeAll es
  rw [h.storedEvents_eq env]
  refine ⟨?_, ?_, ?_⟩
  · apply nodup_of_isChain h.acyclic
    exact (List.isChain_map _).mpr hinv.chain
  · refine hinv.chain.imp ?_
    rintro r r' ⟨v, hv, hcurrent, hevent⟩
    refine ⟨⟨v, hv, hevent⟩, ?_⟩
    intro v' hv' hevent'
    rw [← hcurrent]
    exact (h.resent v' hv' v hv (hevent'.trans hevent.symm)).2
  · -- The code is that of the log after the values before it.
    intro before e after v hes hv hcode
    have hstart : Resends cx (before ++ [e]) := by
      rw [hes, List.append_cons] at h
      exact h.of_append
    have hlt : ∀ e' ∈ before, e'.instanceId < e.instanceId := by
      intro e' he'
      exact (List.pairwise_append.mp hstart.increasing).2.2 e' he' e (List.mem_singleton_self e)
    have hbefore : Refines cx (executeAll cx env before).2 (ReplicatedLog.executeAll cx before).2 :=
      (executeAll_refines env before).2
    rw [hstart.storedEvents_eq env, ReplicatedLog.executeAll_concat]
    rw [(hbefore.execute env before.length e).1] at hcode
    exact (acceptedInv_executeAll before).mem_of_code hlt hv hcode

/-! ### A run with resends -/

/-- Server 7 becomes the master, sends two events, and sends both again. -/
def resendValues : List PaxosEventData :=
  [{ eventGtid := [97, 58, 49], svrid := 7, buffer := [1], checksum := 1 },
    { currentGtid := [97, 58, 49], eventGtid := [97, 58, 50], svrid := 7, buffer := [2],
      checksum := 259 },
    { currentGtid := [97, 58, 49], eventGtid := [97, 58, 50], svrid := 7, buffer := [2],
      checksum := 66565 },
    { eventGtid := [97, 58, 49], svrid := 7, buffer := [1], checksum := 1 }]

def resendRun : List Entry :=
  { instanceId := 0, sm := .master,
    value := (wireCodecs.masterInfo.serialize
      { port := some 6000, svrId := 7, updateTime := 1467000000, lease := 60 }).getD [] } ::
  resendValues.mapIdx fun i v =>
    { instanceId := UInt64.ofNat (i + 1), sm := .event,
      value := (wireCodecs.paxosEventData.serialize v).getD [] }

def resendEnv : LocalEnv where
  engineSvrID := 7
  maxEventFileSize := 30
  now := fun _ => 1467000000
  extLeaseTime := fun _ => 0

/-- The links of `resendValues` go up in this order. -/
def resendRank (gtid : Bytes) : Nat :=
  if gtid = [] then 0 else if gtid = [97, 58, 49] then 1 else 2

theorem carriedValues_resendRun : carriedValues wireCodecs resendRun = resendValues := by
  decide

theorem resends_resendRun : Resends wireCodecs resendRun where
  increasing := by decide
  resent := by
    rw [carriedValues_resendRun]
    decide
  acyclic := by
    rw [carriedValues_resendRun]
    have hup : ∀ a b, Relation.TransGen (Link resendValues) a b → resendRank a < resendRank b := by
      intro a b h
      have hstep : ∀ v ∈ resendValues, resendRank v.currentGtid < resendRank v.eventGtid := by
        decide
      induction h with
      | single h =>
        obtain ⟨v, hv, rfl, rfl⟩ := h
        exact hstep v hv
      | tail _ h ih =>
        obtain ⟨v, hv, rfl, rfl⟩ := h
        exact Nat.lt_trans ih (hstep v hv)
    intro gtid hcycle
    exact Nat.lt_irrefl _ (hup gtid gtid hcycle)
  serializes := by
    have hall : ∀ e ∈ resendRun, ((carried wireCodecs e).all fun v =>
        (wireCodecs.eventData.serialize (savedEvent e.instanceId.toNat v)).isSome) = true := by
      decide
    intro e he v hv
    have h := hall e he
    rwa [hv] at h

theorem events_stored_exactly_once_resendRun :
    (executeAll wireCodecs resendEnv resendRun).1 =
        [.ok, .ok, .ok, .eventExist, .gtidConflict] ∧
      ((storedEvents wireCodecs (executeAll wireCodecs resendEnv resendRun).2.store).map
        EventData.gtid).Nodup :=
  ⟨by decide,
    (events_stored_exactly_once wireCodecs resendEnv resendRun resends_resendRun).1⟩

end PhxSql.Paxos
