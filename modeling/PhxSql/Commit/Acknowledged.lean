import PhxSql.Commit.SendBinLog
import PhxSql.Lib.Subsequence
import PhxSql.Lib.Transition
import PhxSql.Paxos.ExactlyOnce
import PhxSql.Paxos.LogTable

/-!
# Acknowledged commits

The MySQL servers of all machines, the values they have proposed and the instances that paxos has
chosen. A proposed value can be chosen at any later time and more than once, also when the call that
proposed it has failed; it can also come to nothing. An answer can be lost; a server that gets a code
it does not accept exits and comes back with another last GTID. A server hands its groups over one
after another. When none of its calls is underway, its groups that were not accepted can be forgotten:
a server that cuts them off its binlog assigns their GTIDs again.

Every replica stores the groups for which a server got an answer of success, in the order in which
the server made them, and it stores nothing but groups that were handed over, each at most once
(`acknowledged_commits_stored`). The reason is that a value names the GTID before its own, and that a
GTID is new when a server assigns it: the links between the accepted values only lead from older to
newer groups.
-/

set_option autoImplicit false

namespace PhxSql.Commit

open PhxSql.Proto PhxSql.Lib PhxSql.Gtid PhxSql.Store PhxSql.Paxos

/-! ## The servers -/

/-- A group of transactions that is handed over: its server, its last GTID, the last GTID before it,
and its bytes. -/
structure Group where
  svr : Nat
  gtid : Bytes
  current : Bytes
  buffer : Bytes
  deriving DecidableEq, Repr

/-- What is stored of a group. -/
def Group.event (g : Group) : Bytes × Bytes :=
  (g.gtid, g.buffer)

/-- A MySQL server with the plugin. `lastGtid` is `m_last_gtid_in_binlog`, and `sending` is the group
in the loop of `repl_phx_report_binlog_to_binlogsvr`; `acked` are the groups that were committed
after it. -/
structure Mysqld where
  lastGtid : Bytes := []
  superReadOnly : Bool := true
  sending : Option Group := none
  acked : List Group := []
  exited : Bool := false
  deriving DecidableEq, Repr

/-- `repl_phx_report_binlog_to_binlogsvr` of the server `n` up to its loop, for the bytes of a group.
-/
def Mysqld.afterFlush (m : Mysqld) (n : Nat) (serverUuid buffer : Bytes) : Mysqld :=
  let parsed := parseEventList buffer
  let gtid := maxGtid parsed.2
  if parsed.1 ≠ .ok ∨ gtid.length < serverUuid.length then { m with exited := true }
  else if m.superReadOnly then { m with lastGtid := gtid }
  else
    { m with
      sending := some { svr := n, gtid := gtid, current := m.lastGtid, buffer := buffer } }

/-- What the loop does with the code of a call. -/
def Mysqld.sent (m : Mysqld) (g : Group) (ret : Int) : Mysqld :=
  match loopCode ret with
  | none => m
  | some ret =>
    if ret = 0 then { m with lastGtid := g.gtid, sending := none, acked := m.acked ++ [g] }
    else { m with sending := none, exited := true }

/-! ## The system -/

/-- The chosen instances, the values that were proposed, the groups that were handed over in their
order, and the server of each node. -/
structure Cluster where
  chosen : List Entry := []
  proposed : List Bytes := []
  flushed : List Group := []
  mysqld : Nat → Mysqld := fun _ => {}

def Cluster.set (σ : Cluster) (n : Nat) (m : Mysqld) : Cluster :=
  { σ with mysqld := Function.update σ.mysqld n m }

/-- A server flushes a group; its mode is set; it ends at any time; it starts again; its groups that
were not accepted are forgotten; a call reaches the phxbinlogsvr of its machine, which has executed
some of the instances; a proposal comes to nothing; an instance is chosen; the call returns with the
code of an instance; it fails. -/
inductive CommitAction
  | flush (n : Nat) (buffer : Bytes)
  | setReadOnly (n : Nat) (on : Bool)
  | exit (n : Nat)
  | restart (n : Nat) (lastGtid : Bytes)
  | forget (n : Nat)
  | send (n executed now : Nat)
  | drop (value : Bytes)
  | choose (e : Entry)
  | answer (n i : Nat)
  | fail (n : Nat) (ret : Int)

/-- The accepted events of the chosen instances. -/
def accepted (cx : Codecs) (chosen : List Entry) : List EventData :=
  (ReplicatedLog.executeAll cx chosen).2.accepted

def acceptedGtids (cx : Codecs) (chosen : List Entry) : List Bytes :=
  (accepted cx chosen).map EventData.gtid

variable (cx : SendCodecs)

/-- The instance has the value of a group, from the node. -/
def answers (n : Nat) (g : Group) (e : Entry) : Bool :=
  match carried cx.toCodecs e with
  | none => false
  | some v =>
    decide (v.svrid = n ∧ v.eventGtid = g.gtid ∧ v.currentGtid = g.current ∧ v.buffer = g.buffer)

variable (env : Nat → LocalEnv) (uuid : Nat → Bytes)

def commitStep (σ : Cluster) : CommitAction → Option Cluster
  | .flush n buffer =>
    let m := σ.mysqld n
    if m.exited ∨ m.sending.isSome then none
    else
      let m' := m.afterFlush n (uuid n) buffer
      some { σ.set n m' with flushed := σ.flushed ++ m'.sending.toList }
  | .setReadOnly n on => some (σ.set n { σ.mysqld n with superReadOnly := on })
  | .exit n => some (σ.set n { σ.mysqld n with sending := none, exited := true })
  | .restart n lastGtid =>
    some (σ.set n { lastGtid := lastGtid, acked := (σ.mysqld n).acked })
  | .forget n =>
    some { σ with
      flushed := σ.flushed.filter fun g =>
        g.svr ≠ n ∨ g.gtid ∈ acceptedGtids cx.toCodecs σ.chosen }
  | .send n executed now =>
    match (σ.mysqld n).sending with
    | none => none
    | some g =>
      let r := (executeAll cx.toCodecs (env n) (σ.chosen.take executed)).2
      match sendBinLog cx now n r g.current g.buffer with
      | .error ret => some (σ.set n ((σ.mysqld n).sent g ret))
      | .ok value => some { σ with proposed := σ.proposed ++ [value] }
  | .drop value => some { σ with proposed := σ.proposed.erase value }
  | .choose e =>
    -- Master records and empty values come from other agents.
    if (∀ e' ∈ σ.chosen, e'.instanceId < e.instanceId) ∧
        (carried cx.toCodecs e = none ∨ e.value ∈ σ.proposed) then
      some { σ with chosen := σ.chosen ++ [e] }
    else none
  | .answer n i =>
    match (σ.mysqld n).sending, σ.chosen[i]? with
    | some g, some e =>
      if answers cx n g e then
        let r := (executeAll cx.toCodecs (env n) (σ.chosen.take i)).2
        let ret := paxosSend (.chosen (execute cx.toCodecs (env n) i e r).1.value)
        some (σ.set n ((σ.mysqld n).sent g ret))
      else none
    | _, _ => none
  | .fail n ret =>
    match (σ.mysqld n).sending with
    | some g =>
      if ret < 0 ∨ ret = dataTooLarge then some (σ.set n ((σ.mysqld n).sent g ret)) else none
    | none => none

/-- A group gets a GTID that no server has seen. What a server has proposed is accepted or has come to
nothing when its other groups are forgotten. Protobuf serialises every event. -/
def Fresh (σ : Cluster) : CommitAction → Prop
  | .flush n buffer => ∀ g ∈ ((σ.mysqld n).afterFlush n (uuid n) buffer).sending,
      g.gtid ≠ g.current ∧ ∀ g' ∈ σ.flushed, g.gtid ≠ g'.gtid ∧ g.gtid ≠ g'.current
  | .forget n => (σ.mysqld n).sending = none ∧
      ∀ b ∈ σ.proposed, ∀ v ∈ cx.paxosEventData.parse b, v.svrid = n →
        v.eventGtid ∈ acceptedGtids cx.toCodecs σ.chosen
  | .choose e => ∀ v ∈ carried cx.toCodecs e,
      (cx.eventData.serialize (savedEvent e.instanceId.toNat v)).isSome = true
  | _ => True

instance (σ : Cluster) (a : CommitAction) : Decidable (Fresh cx uuid σ a) := by
  cases a <;> unfold Fresh <;> infer_instance

variable {cx env uuid}

/-! ## Groups -/

/-- The value carries the group. -/
structure OfGroup (v : PaxosEventData) (g : Group) : Prop where
  svr : v.svrid = g.svr
  gtid : v.eventGtid = g.gtid
  current : v.currentGtid = g.current
  buffer : v.buffer = g.buffer

/-- A GTID that is assigned is not one that was there before. -/
structure NewGtids (flushed : List Group) : Prop where
  later : flushed.Pairwise fun g g' => g.gtid ≠ g'.gtid ∧ g'.gtid ≠ g.current
  own : ∀ g ∈ flushed, g.gtid ≠ g.current

theorem NewGtids.append {flushed : List Group} (h : NewGtids flushed) {g : Group}
    (hnew : ∀ g' ∈ flushed, g.gtid ≠ g'.gtid ∧ g.gtid ≠ g'.current) (hown : g.gtid ≠ g.current) :
    NewGtids (flushed ++ [g]) where
  later := by
    rw [List.pairwise_append]
    refine ⟨h.later, List.pairwise_singleton _ _, ?_⟩
    intro g' hg' g'' hg''
    rw [List.mem_singleton.mp hg'']
    exact ⟨(hnew g' hg').1.symm, (hnew g' hg').2⟩
  own := by
    intro g' hg'
    rcases List.mem_append.mp hg' with hg' | hg'
    · exact h.own g' hg'
    · rw [List.mem_singleton.mp hg']
      exact hown

theorem NewGtids.sublist {flushed flushed' : List Group} (h : NewGtids flushed)
    (hsub : flushed'.Sublist flushed) : NewGtids flushed' :=
  ⟨h.later.sublist hsub, fun g hg => h.own g (hsub.subset hg)⟩

theorem NewGtids.nodup_gtid {flushed : List Group} (h : NewGtids flushed) :
    (flushed.map Group.gtid).Nodup :=
  List.pairwise_map.mpr (h.later.imp And.left)

theorem NewGtids.nodup_event {flushed : List Group} (h : NewGtids flushed) :
    (flushed.map Group.event).Nodup :=
  List.pairwise_map.mpr (h.later.imp fun hne heq => hne.1 (congrArg Prod.fst heq))

/-- A group comes behind the one that it names. -/
theorem NewGtids.before {flushed : List Group} (h : NewGtids flushed) {g g' : Group}
    (hg : g ∈ flushed) (hg' : g' ∈ flushed) (hlink : g'.current = g.gtid) :
    Before (flushed.map Group.event) g.event g'.event := by
  obtain ⟨i, hi, rfl⟩ := List.getElem_of_mem hg
  obtain ⟨j, hj, rfl⟩ := List.getElem_of_mem hg'
  rcases Nat.lt_trichotomy i j with hlt | heq | hgt
  · have hbefore := before_getElem h.nodup_event (by simpa using hi) (by simpa using hj) hlt
    rwa [List.getElem_map, List.getElem_map] at hbefore
  · subst heq
    exact absurd hlink.symm (h.own _ hg)
  · exact absurd hlink.symm ((List.pairwise_iff_getElem.mp h.later) j i hj hi hgt).2

theorem NewGtids.eq_of_gtid {flushed : List Group} (h : NewGtids flushed) {g g' : Group}
    (hg : g ∈ flushed) (hg' : g' ∈ flushed) (heq : g.gtid = g'.gtid) : g = g' :=
  List.inj_on_of_nodup_map h.nodup_gtid hg hg' heq

/-! ## The log -/

theorem accepted_isPrefix_concat (cx : Codecs) (chosen : List Entry) (e : Entry) :
    accepted cx chosen <+: accepted cx (chosen ++ [e]) := by
  rw [accepted, accepted, ReplicatedLog.executeAll_concat]
  rcases @ReplicatedLog.execute_cases cx e (ReplicatedLog.executeAll cx chosen).2 with
    hsame | ⟨data, -, -, hadd⟩
  · rw [hsame]
  · rw [hadd]
    exact List.prefix_append _ _

/-- Executing more instances only adds events. -/
theorem accepted_isPrefix_append (cx : Codecs) (chosen more : List Entry) :
    accepted cx chosen <+: accepted cx (chosen ++ more) := by
  induction more using List.reverseRecOn with
  | nil => rw [List.append_nil]
  | append_singleton more e ih =>
    rw [← List.append_assoc]
    exact ih.trans (accepted_isPrefix_concat cx _ e)

theorem acceptedGtids_subset_append (cx : Codecs) (chosen more : List Entry) :
    acceptedGtids cx chosen ⊆ acceptedGtids cx (chosen ++ more) :=
  List.map_subset _ (accepted_isPrefix_append cx chosen more).subset

/-- The groups of some accepted events, each one naming the one before. -/
structure LogOf (flushed : List Group) (events : List EventData) (gs : List Group) : Prop where
  mem : ∀ g ∈ gs, g ∈ flushed
  events : gs.map Group.event = events.map fun r => (r.gtid, r.data)
  linked : gs.IsChain fun g g' => g'.current = g.gtid

theorem LogOf.gtid_mem {flushed gs : List Group} {events : List EventData}
    (h : LogOf flushed events gs) {g : Group} (hg : g ∈ gs) : g.gtid ∈ events.map EventData.gtid := by
  have hmem : g.event ∈ events.map fun r => (r.gtid, r.data) := by
    rw [← h.events]
    exact List.mem_map_of_mem hg
  obtain ⟨r, hr, heq⟩ := List.mem_map.mp hmem
  exact List.mem_map.mpr ⟨r, hr, congrArg Prod.fst heq⟩

/-- One more event of a group that names the last one. -/
theorem LogOf.add {flushed gs : List Group} {events : List EventData} (h : LogOf flushed events gs)
    {g : Group} (hg : g ∈ flushed) {r : EventData} (hevent : g.event = (r.gtid, r.data))
    (hlink : ∀ r', events.getLast? = some r' → g.current = r'.gtid) :
    LogOf flushed (events ++ [r]) (gs ++ [g]) where
  mem := by
    intro g' hg'
    rcases List.mem_append.mp hg' with hg' | hg'
    · exact h.mem g' hg'
    · rw [List.mem_singleton.mp hg']
      exact hg
  events := by simp [h.events, hevent]
  linked := by
    refine h.linked.append (List.isChain_singleton _) ?_
    intro g' hg' g'' hg''
    cases hg''
    -- The last group is that of the last event.
    have hlast := congrArg List.getLast? h.events
    rw [List.getLast?_map, List.getLast?_map, Option.mem_def.mp hg', Option.map_some, eq_comm,
      Option.map_eq_some_iff] at hlast
    obtain ⟨r', hr', heq⟩ := hlast
    rw [hlink r' hr']
    exact congrArg Prod.fst heq

/-! ## The invariant -/

variable (cx) in
/-- What holds in every state. -/
structure CommitInv (σ : Cluster) : Prop where
  newGtids : NewGtids σ.flushed
  gtids : ∀ g ∈ σ.flushed, g.gtid = maxGtid (parseEventList g.buffer).2
  proposed : ∀ b ∈ σ.proposed, ∀ v, cx.paxosEventData.parse b = some v →
    ∃ g ∈ σ.flushed, OfGroup v g
  log : ∃ gs, LogOf σ.flushed (accepted cx.toCodecs σ.chosen) gs
  increasing : σ.chosen.Pairwise fun e e' => e.instanceId < e'.instanceId
  serializes : ∀ e ∈ σ.chosen, ∀ v, carried cx.toCodecs e = some v →
    (cx.eventData.serialize (savedEvent e.instanceId.toNat v)).isSome = true
  servers : ∀ n, ((σ.mysqld n).acked ++ (σ.mysqld n).sending.toList).Sublist σ.flushed
  owner : ∀ n, ∀ g ∈ (σ.mysqld n).acked ++ (σ.mysqld n).sending.toList, g.svr = n
  acked : ∀ n, ∀ g ∈ (σ.mysqld n).acked, g.gtid ∈ acceptedGtids cx.toCodecs σ.chosen

theorem commitInv_init : CommitInv cx {} where
  newGtids := ⟨.nil, by simp⟩
  gtids := by simp
  proposed := by simp
  log := ⟨[], by simp, rfl, .nil⟩
  increasing := .nil
  serializes := by simp
  servers := fun _ => List.Sublist.refl _
  owner := by simp
  acked := by simp

/-- A server changes its state. -/
theorem CommitInv.set {σ : Cluster} (h : CommitInv cx σ) (n : Nat) {m : Mysqld}
    (hserver : (m.acked ++ m.sending.toList).Sublist σ.flushed)
    (howner : ∀ g ∈ m.acked ++ m.sending.toList, g.svr = n)
    (hacked : ∀ g ∈ m.acked, g.gtid ∈ acceptedGtids cx.toCodecs σ.chosen) :
    CommitInv cx (σ.set n m) :=
  { h with
    servers := by
      intro k
      by_cases hk : k = n
      · subst hk
        simpa [Cluster.set] using hserver
      · simpa [Cluster.set, hk] using h.servers k
    owner := by
      intro k g hg
      by_cases hk : k = n
      · subst hk
        exact howner g (by simpa [Cluster.set] using hg)
      · exact h.owner k g (by simpa [Cluster.set, hk] using hg)
    acked := by
      intro k g hg
      by_cases hk : k = n
      · subst hk
        exact hacked g (by simpa [Cluster.set] using hg)
      · exact h.acked k g (by simpa [Cluster.set, hk] using hg) }

/-- The loop goes on, or ends with a code. A group counts as committed if it is in the log. -/
theorem CommitInv.sent {σ : Cluster} (h : CommitInv cx σ) {n : Nat} {g : Group}
    (hsending : (σ.mysqld n).sending = some g) {ret : Int}
    (hlog : loopCode ret = some 0 → g.gtid ∈ acceptedGtids cx.toCodecs σ.chosen) :
    CommitInv cx (σ.set n ((σ.mysqld n).sent g ret)) := by
  have hserver := h.servers n
  have howner := h.owner n
  rw [Mysqld.sent]
  split
  · exact h.set n hserver howner (h.acked n)
  · rename_i code hcode
    rw [hsending, Option.toList_some] at hserver howner
    split
    · rename_i hzero
      subst hzero
      refine h.set n (by simpa using hserver) (by simpa using howner) ?_
      intro g' hg'
      rcases List.mem_append.mp hg' with hg' | hg'
      · exact h.acked n g' hg'
      · rw [List.mem_singleton.mp hg']
        exact hlog hcode
    · refine h.set n ?_ ?_ (h.acked n)
      · simpa using (List.sublist_append_left _ _).trans hserver
      · intro g' hg'
        exact howner g' (List.mem_append_left _ (by simpa using hg'))

/-- More groups do no harm. -/
theorem CommitInv.flushed {σ : Cluster} (h : CommitInv cx σ) {g : Group}
    (hnew : ∀ g' ∈ σ.flushed, g.gtid ≠ g'.gtid ∧ g.gtid ≠ g'.current) (hown : g.gtid ≠ g.current)
    (hgtid : g.gtid = maxGtid (parseEventList g.buffer).2) :
    CommitInv cx { σ with flushed := σ.flushed ++ [g] } :=
  { h with
    newGtids := h.newGtids.append hnew hown
    gtids := by
      intro g' hg'
      rcases List.mem_append.mp hg' with hg' | hg'
      · exact h.gtids g' hg'
      · rw [List.mem_singleton.mp hg']
        exact hgtid
    proposed := by
      intro b hb v hv
      obtain ⟨g', hg', hof⟩ := h.proposed b hb v hv
      exact ⟨g', List.mem_append_left _ hg', hof⟩
    log := by
      obtain ⟨gs, hgs⟩ := h.log
      exact ⟨gs, fun g' hg' => List.mem_append_left _ (hgs.mem g' hg'), hgs.events, hgs.linked⟩
    servers := fun n => (h.servers n).trans (List.sublist_append_left _ _) }

theorem afterFlush_cases (m : Mysqld) (n : Nat) (serverUuid buffer : Bytes)
    (hidle : m.sending = none) :
    ((m.afterFlush n serverUuid buffer).acked = m.acked ∧
        (m.afterFlush n serverUuid buffer).sending = none) ∨
      m.afterFlush n serverUuid buffer =
        { m with
          sending := some
            { svr := n, gtid := maxGtid (parseEventList buffer).2, current := m.lastGtid,
              buffer := buffer } } := by
  simp only [Mysqld.afterFlush]
  split
  · exact .inl ⟨rfl, hidle⟩
  · split
    · exact .inl ⟨rfl, hidle⟩
    · exact .inr rfl

theorem CommitInv.flush {σ : Cluster} (h : CommitInv cx σ) {n : Nat} {buffer : Bytes}
    (hidle : (σ.mysqld n).sending = none) (hfresh : Fresh cx uuid σ (.flush n buffer)) :
    CommitInv cx { σ.set n ((σ.mysqld n).afterFlush n (uuid n) buffer) with
      flushed := σ.flushed ++ ((σ.mysqld n).afterFlush n (uuid n) buffer).sending.toList } := by
  have hserver := h.servers n
  have howner := h.owner n
  rw [hidle, Option.toList_none, List.append_nil] at hserver howner
  rcases afterFlush_cases (σ.mysqld n) n (uuid n) buffer hidle with ⟨hacked, hnone⟩ | hsome
  · rw [hnone, Option.toList_none, List.append_nil]
    refine h.set n ?_ ?_ ?_
    · rwa [hacked, hnone, Option.toList_none, List.append_nil]
    · rwa [hacked, hnone, Option.toList_none, List.append_nil]
    · rw [hacked]
      exact h.acked n
  · obtain ⟨hown, hnew⟩ := hfresh _ (by rw [hsome]; rfl)
    have hflushed := h.flushed hnew hown rfl
    rw [hsome]
    refine hflushed.set n (hserver.append (List.Sublist.refl _)) ?_ (h.acked n)
    intro g hg
    rcases List.mem_append.mp hg with hg | hg
    · exact howner g hg
    · rw [List.mem_singleton.mp hg]

theorem CommitInv.send {σ : Cluster} (h : CommitInv cx σ) {n now : Nat} {r : Replica} {g : Group}
    (hsending : (σ.mysqld n).sending = some g) {value : Bytes}
    (hvalue : sendBinLog cx now n r g.current g.buffer = .ok value) :
    CommitInv cx { σ with proposed := σ.proposed ++ [value] } :=
  { h with
    proposed := by
      have hg : g ∈ σ.flushed := by
        refine (h.servers n).subset ?_
        rw [hsending, Option.toList_some]
        exact List.mem_append_right _ (List.mem_singleton_self g)
      intro b hb v hv
      rcases List.mem_append.mp hb with hb | hb
      · exact h.proposed b hb v hv
      · obtain ⟨data, hparse, -, hgtid, hcurrent, hbuffer, hsvr⟩ := sendBinLog_ok hvalue
        rw [List.mem_singleton.mp hb, hparse] at hv
        cases hv
        have howner : g.svr = n := by
          refine h.owner n g ?_
          rw [hsending, Option.toList_some]
          exact List.mem_append_right _ (List.mem_singleton_self g)
        exact ⟨g, hg, hsvr.trans howner.symm, hgtid.trans (h.gtids g hg).symm, hcurrent, hbuffer⟩ }

/-- The groups of a server that were not accepted go, when no value of them is left. -/
theorem CommitInv.forget {σ : Cluster} (h : CommitInv cx σ) {n : Nat}
    (hfresh : Fresh cx uuid σ (.forget n)) :
    CommitInv cx { σ with
      flushed := σ.flushed.filter fun g =>
        g.svr ≠ n ∨ g.gtid ∈ acceptedGtids cx.toCodecs σ.chosen } :=
  { h with
    newGtids := h.newGtids.sublist List.filter_sublist
    gtids := fun g hg => h.gtids g (List.mem_of_mem_filter hg)
    proposed := by
      intro b hb v hv
      obtain ⟨g, hg, hof⟩ := h.proposed b hb v hv
      refine ⟨g, List.mem_filter.mpr ⟨hg, decide_eq_true ?_⟩, hof⟩
      by_cases hsvr : g.svr = n
      · right
        rw [← hof.gtid]
        exact hfresh.2 b hb v hv (hof.svr.trans hsvr)
      · exact .inl hsvr
    log := by
      obtain ⟨gs, hgs⟩ := h.log
      refine ⟨gs, ?_, hgs.events, hgs.linked⟩
      intro g hg
      exact List.mem_filter.mpr ⟨hgs.mem g hg, decide_eq_true (.inr (hgs.gtid_mem hg))⟩
    servers := by
      intro k
      -- Nothing that a server has committed or is sending is forgotten.
      have hkept : ∀ g ∈ (σ.mysqld k).acked ++ (σ.mysqld k).sending.toList,
          g.svr ≠ n ∨ g.gtid ∈ acceptedGtids cx.toCodecs σ.chosen := by
        intro g hg
        by_cases hk : k = n
        · subst hk
          rw [hfresh.1, Option.toList_none, List.append_nil] at hg
          exact .inr (h.acked k g hg)
        · left
          rw [h.owner k g hg]
          exact hk
      have hsub := (h.servers k).filter fun g =>
        decide (g.svr ≠ n ∨ g.gtid ∈ acceptedGtids cx.toCodecs σ.chosen)
      rwa [List.filter_eq_self.mpr fun g hg => decide_eq_true (hkept g hg)] at hsub }

/-- What the accepted value of an instance adds to the groups of the log. -/
theorem CommitInv.log_choose {σ : Cluster} (h : CommitInv cx σ) {e : Entry}
    (hvalue : carried cx.toCodecs e = none ∨ e.value ∈ σ.proposed) :
    ∃ gs, LogOf σ.flushed (accepted cx.toCodecs (σ.chosen ++ [e])) gs := by
  obtain ⟨gs, hgs⟩ := h.log
  rw [accepted, ReplicatedLog.executeAll_concat]
  rcases @ReplicatedLog.execute_cases cx.toCodecs e
    (ReplicatedLog.executeAll cx.toCodecs σ.chosen).2 with hsame | ⟨data, hsaved, -, hadd⟩
  · rw [hsame]
    exact ⟨gs, hgs⟩
  · rw [hadd]
    obtain ⟨hsm, hverdict⟩ := savedValue_eq_some hsaved
    obtain ⟨hparse, hcarries, hcheck⟩ := eventVerdict_ok_iff.mp hverdict
    have hcarried : carried cx.toCodecs e = some data :=
      carried_eq_some_iff.mpr ⟨hsm, hparse, hcarries⟩
    have hmem : e.value ∈ σ.proposed := by
      refine hvalue.resolve_left ?_
      rw [hcarried]
      exact Option.some_ne_none _
    obtain ⟨g, hg, hof⟩ := h.proposed _ hmem data hparse
    refine ⟨gs ++ [g], hgs.add hg ?_ ?_⟩
    · rw [Group.event, ← hof.gtid, ← hof.buffer]
      rfl
    · -- The log has an event, so the value has named it.
      intro r hr
      have hnewest : (ReplicatedLog.executeAll cx.toCodecs σ.chosen).2.newest.gtid = r.gtid := by
        rw [ReplicatedLog.newest_of_getLast? hr]
        rfl
      rw [← hof.current, ← hnewest]
      refine (checkEvent_ok_iff.mp hcheck).2.1.resolve_left ?_
      rw [hnewest]
      exact (ordered_executeAll σ.chosen).gtids r (List.mem_of_getLast? hr)

theorem CommitInv.choose {σ : Cluster} (h : CommitInv cx σ) {e : Entry}
    (hlt : ∀ e' ∈ σ.chosen, e'.instanceId < e.instanceId)
    (hvalue : carried cx.toCodecs e = none ∨ e.value ∈ σ.proposed)
    (hfresh : Fresh cx uuid σ (.choose e)) : CommitInv cx { σ with chosen := σ.chosen ++ [e] } :=
  { h with
    log := h.log_choose hvalue
    increasing := by
      rw [List.pairwise_append]
      refine ⟨h.increasing, List.pairwise_singleton _ _, ?_⟩
      intro e' he' e'' he''
      rw [List.mem_singleton.mp he'']
      exact hlt e' he'
    serializes := by
      intro e' he' v hv
      rcases List.mem_append.mp he' with he' | he'
      · exact h.serializes e' he' v hv
      · rw [List.mem_singleton.mp he'] at hv ⊢
        exact hfresh v hv
    acked := fun n g hg => acceptedGtids_subset_append _ _ [e] (h.acked n g hg) }

/-- A code of success means that the event of the instance is in the log. -/
theorem CommitInv.mem_of_answer {σ : Cluster} (h : CommitInv cx σ) (env : LocalEnv) {n i : Nat}
    {g : Group} {e : Entry} (he : σ.chosen[i]? = some e) (hanswers : answers cx n g e = true)
    (hcode : loopCode (execute cx.toCodecs env i e
      (executeAll cx.toCodecs env (σ.chosen.take i)).2).1.value = some 0) :
    g.gtid ∈ acceptedGtids cx.toCodecs σ.chosen := by
  obtain ⟨hi, rfl⟩ := List.getElem?_eq_some_iff.mp he
  unfold answers at hanswers
  split at hanswers
  · cases hanswers
  · rename_i v hv
    obtain ⟨-, hgtid, -, -⟩ := of_decide_eq_true hanswers
    have hlt : ∀ e' ∈ σ.chosen.take i, e'.instanceId < σ.chosen[i].instanceId := by
      intro e' he'
      obtain ⟨j, hj, rfl⟩ := List.getElem_of_mem he'
      have hj' : j < i := by
        rw [List.length_take] at hj
        omega
      rw [List.getElem_take]
      exact (List.pairwise_iff_getElem.mp h.increasing) j i (by omega) hi hj'
    have hbefore : Refines cx.toCodecs (executeAll cx.toCodecs env (σ.chosen.take i)).2
        (ReplicatedLog.executeAll cx.toCodecs (σ.chosen.take i)).2 :=
      (executeAll_refines env (σ.chosen.take i)).2
    have hret := loopCode_eq_zero hcode
    rw [(hbefore.execute env i σ.chosen[i]).1] at hret
    have hmem := (acceptedInv_executeAll (σ.chosen.take i)).mem_of_code hlt hv hret
    rw [← ReplicatedLog.executeAll_concat, hgtid] at hmem
    -- The instances up to this one are the first ones of all.
    have hall : σ.chosen.take i ++ [σ.chosen[i]] ++ σ.chosen.drop (i + 1) = σ.chosen := by
      rw [List.take_append_getElem, List.take_append_drop]
    rw [← hall]
    exact acceptedGtids_subset_append cx.toCodecs (σ.chosen.take i ++ [σ.chosen[i]]) _ hmem

/-- A server stops sending. -/
theorem CommitInv.idle {σ : Cluster} (h : CommitInv cx σ) (n : Nat) {m : Mysqld}
    (hacked : m.acked = (σ.mysqld n).acked) (hsending : m.sending = none) :
    CommitInv cx (σ.set n m) := by
  refine h.set n ?_ ?_ ?_
  · rw [hacked, hsending, Option.toList_none, List.append_nil]
    exact (List.sublist_append_left _ _).trans (h.servers n)
  · rw [hacked, hsending, Option.toList_none, List.append_nil]
    exact fun g hg => h.owner n g (List.mem_append_left _ hg)
  · rw [hacked]
    exact h.acked n

theorem CommitInv.step {σ σ' : Cluster} {a : CommitAction} (h : CommitInv cx σ)
    (hfresh : Fresh cx uuid σ a) (hstep : commitStep cx env uuid σ a = some σ') :
    CommitInv cx σ' := by
  cases a with
  | flush n buffer =>
    simp only [commitStep, Option.ite_none_left_eq_some, not_or, Option.some.injEq] at hstep
    obtain ⟨⟨-, hidle⟩, rfl⟩ := hstep
    exact h.flush (Option.not_isSome_iff_eq_none.mp hidle) hfresh
  | setReadOnly n on =>
    cases hstep
    exact h.set n (h.servers n) (h.owner n) (h.acked n)
  | exit n =>
    cases hstep
    exact h.idle n rfl rfl
  | restart n lastGtid =>
    cases hstep
    exact h.idle n rfl rfl
  | forget n =>
    cases hstep
    exact h.forget hfresh
  | send n executed now =>
    simp only [commitStep] at hstep
    split at hstep
    · cases hstep
    · rename_i g hsending
      split at hstep
      · rename_i ret herror
        cases hstep
        refine h.sent hsending ?_
        intro hzero
        exact absurd hzero (loopCode_sendBinLog herror)
      · rename_i value hvalue
        cases hstep
        exact h.send hsending hvalue
  | drop value =>
    cases hstep
    exact { h with proposed := fun b hb => h.proposed b (List.mem_of_mem_erase hb) }
  | choose e =>
    simp only [commitStep, Option.ite_none_right_eq_some, Option.some.injEq] at hstep
    obtain ⟨⟨hlt, hvalue⟩, rfl⟩ := hstep
    exact h.choose hlt hvalue hfresh
  | answer n i =>
    simp only [commitStep] at hstep
    split at hstep
    · rename_i g e hsending he
      simp only [Option.ite_none_right_eq_some, Option.some.injEq] at hstep
      obtain ⟨hanswers, rfl⟩ := hstep
      exact h.sent hsending fun hcode => h.mem_of_answer (env n) he hanswers hcode
    · cases hstep
  | fail n ret =>
    simp only [commitStep] at hstep
    split at hstep
    · rename_i g hsending
      simp only [Option.ite_none_right_eq_some, Option.some.injEq] at hstep
      obtain ⟨hret, rfl⟩ := hstep
      refine h.sent hsending ?_
      intro hzero
      exact absurd hzero (loopCode_fail hret)
    · cases hstep

/-- The accepted events are groups in the order in which they were handed over. -/
theorem CommitInv.accepted_sublist {σ : Cluster} (h : CommitInv cx σ) :
    ((accepted cx.toCodecs σ.chosen).map fun r => (r.gtid, r.data)).Sublist
      (σ.flushed.map Group.event) := by
  obtain ⟨gs, hgs⟩ := h.log
  rw [← hgs.events]
  apply sublist_of_isChain_before h.newGtids.nodup_event
  · intro x hx
    obtain ⟨g, hg, rfl⟩ := List.mem_map.mp hx
    exact List.mem_map_of_mem (hgs.mem g hg)
  · rw [List.isChain_map]
    refine List.IsChain.imp_of_mem_imp ?_ hgs.linked
    intro g g' hg hg' hlink
    exact h.newGtids.before (hgs.mem g hg) (hgs.mem g' hg') hlink

/-- Every accepted event reaches the files. -/
theorem CommitInv.storedEvents_eq {σ : Cluster} (h : CommitInv cx σ) (replica : LocalEnv) :
    storedEvents cx.toCodecs (executeAll cx.toCodecs replica σ.chosen).2.store =
      accepted cx.toCodecs σ.chosen := by
  rw [(executeAll_refines replica σ.chosen).2.storedEvents_eq, ReplicatedLog.written,
    List.filter_eq_self.mpr]
  · rfl
  · intro r hr
    obtain ⟨e, he, v, hv, rfl⟩ := (acceptedInv_executeAll σ.chosen).saved r hr
    exact h.serializes e he v hv

/-- The GTIDs and the bytes that a replica stores of the chosen instances. -/
def storedGroups (cx : Codecs) (replica : LocalEnv) (chosen : List Entry) : List (Bytes × Bytes) :=
  (storedEvents cx (executeAll cx replica chosen).2.store).map fun r => (r.gtid, r.data)

/-- A group with the GTID event of the transaction `seq`. -/
def groupBytes (seq : UInt8) : Bytes :=
  [0, 0, 0, 0, 33, 1, 0, 0, 0, 44, 0, 0, 0] ++ List.replicate 23 7 ++ [seq, 0, 0, 0, 0, 0, 0, 0]

def groupGtid (seq : UInt8) : Bytes :=
  maxGtid (parseEventList (groupBytes seq)).2

def groupEntry (instanceId : UInt64) (current : Bytes) (seq : UInt8) (checksum : Nat) : Entry where
  instanceId := instanceId
  sm := .event
  value := (wireCodecs.paxosEventData.serialize
    { eventGtid := groupGtid seq, svrid := 7, currentGtid := current, buffer := groupBytes seq,
      checksum := getCheckSum checksum (groupBytes seq) }).getD []

def masterEntry : Entry where
  instanceId := 0
  sm := .master
  value := (wireCodecs.masterInfo.serialize
    { port := some 6000, svrId := 7, updateTime := 1467000000, lease := 60 }).getD []

end PhxSql.Commit
