import PhxSql.Client.MasterInfoRpc
import PhxSql.Client.QuorumRead
import PhxSql.Master.MasterLog
import PhxSql.Proxy.GroupStatusCache

/-!
# The proxies and the group they ask

The thread of a proxy's `GroupStatusCache` asks the binlog server of its machine, which asks all
members and combines their answers; if that fails it can ask the members itself. Members answer from
their own records, at any time and in any order, and an answer can be on its way while the group
goes on. The clocks of the machines that combine answers are arbitrary.

What a cache holds is the master of some point of the group's log together with the version of that
point (`GroupInv`). Different records of the log have different versions, so caches that hold the
same version hold the same master, whenever and wherever they heard of it.
-/

set_option autoImplicit false

namespace PhxSql.Proxy

open PhxSql.Proto PhxSql.Client PhxSql.Master PhxSql.Lib.Transition

/-! ## Calls in progress -/

/-- No call has returned. -/
def noneReturned (n : Nat) : RpcRun n where
  completions := []
  once := List.nodup_nil

theorem once_push {n : Nat} {run : RpcRun n} {c : Completion n}
    (h : c.index ∉ run.completions.map Completion.index) :
    ((run.completions ++ [c]).map Completion.index).Nodup := by
  rw [List.map_append, List.map_singleton, List.nodup_append]
  refine ⟨run.once, List.nodup_singleton _, ?_⟩
  rintro i hi j hj rfl
  rw [List.mem_singleton.mp hj] at hi
  exact h hi

/-- One more call returns. -/
def pushCompletion {n : Nat} (run : RpcRun n) (c : Completion n)
    (h : c.index ∉ run.completions.map Completion.index) : RpcRun n where
  completions := run.completions ++ [c]
  once := once_push h

/-- A call of `GetGlobalMaster` in progress: the members that are asked, the answers they have
given, and the calls that have returned. -/
structure Reading where
  members : List Nat
  sent : Fin members.length → Option (Bytes × Int) := fun _ => none
  run : RpcRun members.length := noneReturned members.length

/-- A member gives its answer. -/
def Reading.serve (r : Reading) (i : Fin r.members.length) (answer : Bytes × Int) : Reading :=
  { r with sent := Function.update r.sent i (some answer) }

/-- The call to a member returns; it does so once. -/
def Reading.complete (r : Reading) (i : Fin r.members.length) (answer : Bytes × Int) :
    Option Reading :=
  if h : i ∉ r.run.completions.map Completion.index then
    some { r with run := pushCompletion r.run { index := i, value := answer.1, ret := answer.2 } h }
  else none

/-- What the thread of the cache is doing. -/
inductive Asking
  | idle
  /-- `GetMaster`: the binlog server of the machine asks the members. -/
  | server (r : Reading)
  /-- `GetMaster` has failed and the members are to be asked directly. -/
  | serverDead
  /-- `GetGlobalMaster` in the proxy. -/
  | direct (r : Reading)

/-- The call in progress. -/
def Asking.reading : Asking → Option Reading
  | .server r => some r
  | .direct r => some r
  | _ => none

/-- The same phase with another state of its call. -/
def Asking.withReading (r : Reading) : Asking → Asking
  | .server _ => .server r
  | .direct _ => .direct r
  | asking => asking

/-- A proxy as far as its view of the group goes. -/
structure Viewer where
  cache : GroupStatusCache := {}
  asking : Asking := .idle

/-- The nodes of the group and the proxies that ask them. A proxy that restarts is a new one. -/
structure Group where
  cluster : Cluster := {}
  proxies : Nat → Viewer := fun _ => {}

/-! ## Steps -/

inductive ViewAction
  /-- `UpdateMasterStatus` begins with `GetMaster`; the binlog server asks these members. -/
  | getMaster (members : List Nat)
  /-- The member at this place answers from its record. -/
  | serve (i : Nat) (changing : Bool)
  /-- The answer of the member at this place arrives. -/
  | arrive (i : Nat)
  /-- The call to the member at this place fails. -/
  | fail (i : Nat) (ret : Int)
  /-- The call is over. `clocks` are the two clock reads for each answer that is decoded and `now`
  is the time at the proxy; `lost` says that the answer of the binlog server does not reach it. -/
  | finish (clocks : Nat → Nat × Nat) (now : Nat) (lost : Bool)
  /-- `GetGlobalMaster` in the proxy, after `GetMaster` has failed. -/
  | getGlobalMaster (members : List Nat)
  | updateMembership (answer : Option (List Bytes))

inductive GroupAction
  | cluster (a : Master.Action)
  | proxy (p : Nat) (a : ViewAction)

section Steps

variable (codec : Codec RpcMasterInfo fun _ => True)

/-- What `GetGlobalMaster` returns on the answers. -/
def Reading.result (r : Reading) (clocks : Nat → Nat × Nat) (requireMajority : Bool) :
    Int × GlobalMaster :=
  Client.getGlobalMaster codec.parse (fun i => clocks i) (rpcCallWithIPList r.run) requireMajority {}

/-- What the proxy hears from the binlog server that has combined the answers. -/
def Reading.heardFromServer (r : Reading) (clocks : Nat → Nat × Nat) (now : Nat) (lost : Bool) :
    Option GlobalMaster :=
  if lost then none
  else
    Client.getMaster codec (now, now) (answerOf codec (realGetMasterInfo (r.result codec clocks true)))

/-- What the proxy hears from the members themselves. -/
def Reading.heardDirectly (r : Reading) (clocks : Nat → Nat × Nat) : Option GlobalMaster :=
  let result := r.result codec clocks false
  if result.1 = 0 then some result.2 else none

/-- The rest of `UpdateMasterStatus` when a call is over. -/
def finishAsking (cfg : ProxyConfig) (clocks : Nat → Nat × Nat) (now : Nat) (lost : Bool)
    (s : Viewer) : Option Viewer :=
  match s.asking with
  | .server r =>
    match r.heardFromServer codec clocks now lost with
    | some heard =>
      some { cache := s.cache.updateMasterStatus cfg now (some heard) none, asking := .idle }
    | none =>
      if cfg.tryBestIfBinlogsvrDead = false ∨ s.cache.membership = [] then
        some { s with asking := .idle }
      else some { s with asking := .serverDead }
  | .direct r =>
    some
      { cache := s.cache.updateMasterStatus cfg now none (r.heardDirectly codec clocks)
        asking := .idle }
  | _ => none

/-- A step of the call to the member at place `i`. -/
def Viewer.atMember (s : Viewer) (i : Nat)
    (f : (r : Reading) → Fin r.members.length → Option Reading) : Option Viewer :=
  match s.asking.reading with
  | some r =>
    if h : i < r.members.length then
      (f r ⟨i, h⟩).map fun r' => { s with asking := s.asking.withReading r' }
    else none
  | none => none

/-- The step of one proxy. It reads the records of the nodes and changes none. -/
def viewStep (cfg : ProxyConfig) (c : Cluster) (s : Viewer) : ViewAction → Option Viewer
  | .getMaster members =>
    match s.asking with
    | .idle =>
      if cfg.specifiedMasterIP = [] then some { s with asking := .server { members := members } }
      else none
    | _ => none
  | .serve i changing =>
    s.atMember i fun r i =>
      let n := r.members.get i
      if (r.sent i).isNone then
        some (r.serve i (answerOf codec
          (realGetLocalMasterInfo c.now n changing (c.nodes n).master)))
      else none
  | .arrive i => s.atMember i fun r i => (r.sent i).bind fun answer => r.complete i answer
  | .fail i ret => s.atMember i fun r i => if ret ≠ 0 then r.complete i ([], ret) else none
  | .finish clocks now lost => finishAsking codec cfg clocks now lost s
  | .getGlobalMaster members =>
    match s.asking with
    | .serverDead =>
      if s.cache.membership = members.map getIP then
        some { s with asking := .direct { members := members } }
      else none
    | _ => none
  | .updateMembership answer =>
    match s.asking with
    | .idle => some { s with cache := s.cache.updateMembership answer }
    | _ => none

variable (cfg : Config) (cfgs : Nat → ProxyConfig)

def groupStep (g : Group) : GroupAction → Option Group
  | .cluster a => (Master.step cfg g.cluster a).map fun c => { g with cluster := c }
  | .proxy p a =>
    (viewStep codec (cfgs p) g.cluster (g.proxies p) a).map fun s =>
      { g with proxies := Function.update g.proxies p s }

/-- The group and its proxies as a transition system. -/
def groupSystem : System Group GroupAction where
  init := {}
  step := groupStep codec cfg cfgs

end Steps

variable {codec : Codec RpcMasterInfo fun _ => True}

/-! ## What the answers tell -/

/-- A successful answer can be parsed, and the message has the property. -/
def Tells (codec : Codec RpcMasterInfo fun _ => True) (P : RpcMasterInfo → Prop)
    (answer : Bytes × Int) : Prop :=
  answer.2 = 0 → ∃ info, codec.parse answer.1 = some info ∧ P info

theorem Tells.mono {P Q : RpcMasterInfo → Prop} {answer : Bytes × Int}
    (h : Tells codec P answer) (himp : ∀ info, P info → Q info) : Tells codec Q answer :=
  fun hret => (h hret).imp fun _ hinfo => ⟨hinfo.1, himp _ hinfo.2⟩

/-- Every answer of a call, on its way or arrived, tells a message with the property. -/
structure Reading.Answers (codec : Codec RpcMasterInfo fun _ => True)
    (P : Nat → RpcMasterInfo → Prop) (r : Reading) : Prop where
  sent : ∀ i answer, r.sent i = some answer → Tells codec (P (r.members.get i)) answer
  arrived : ∀ c ∈ r.run.completions, Tells codec (P (r.members.get c.index)) (c.value, c.ret)

theorem Reading.answers_new (P : Nat → RpcMasterInfo → Prop) (members : List Nat) :
    Reading.Answers codec P { members := members } :=
  ⟨(fun _ _ h => nomatch h), (fun _ h => nomatch h)⟩

theorem Reading.Answers.mono {P Q : Nat → RpcMasterInfo → Prop} {r : Reading}
    (h : r.Answers codec P) (himp : ∀ n info, P n info → Q n info) : r.Answers codec Q :=
  ⟨fun i answer hi => (h.sent i answer hi).mono (himp _),
    fun c hc => (h.arrived c hc).mono (himp _)⟩

theorem Reading.Answers.serve {P : Nat → RpcMasterInfo → Prop} {r : Reading}
    (h : r.Answers codec P) {i : Fin r.members.length} {answer : Bytes × Int}
    (hanswer : Tells codec (P (r.members.get i)) answer) : (r.serve i answer).Answers codec P := by
  have hsent : ∀ j answer', Function.update r.sent i (some answer) j = some answer' →
      Tells codec (P (r.members.get j)) answer' := by
    intro j answer' hj
    rcases eq_or_ne j i with rfl | hne
    · rw [Function.update_self] at hj
      cases hj
      exact hanswer
    · rw [Function.update_of_ne hne] at hj
      exact h.sent j answer' hj
  exact ⟨hsent, h.arrived⟩

theorem Reading.Answers.complete {P : Nat → RpcMasterInfo → Prop} {r r' : Reading}
    (h : r.Answers codec P) {i : Fin r.members.length} {answer : Bytes × Int}
    (hanswer : Tells codec (P (r.members.get i)) answer) (hr : r.complete i answer = some r') :
    r'.members = r.members ∧ r'.Answers codec P := by
  simp only [Reading.complete, Option.dite_none_right_eq_some, Option.some.injEq] at hr
  obtain ⟨hnew, rfl⟩ := hr
  refine ⟨rfl, h.sent, fun c hc => ?_⟩
  rcases List.mem_append.mp hc with hc | hc
  · exact h.arrived c hc
  · rw [List.mem_singleton.mp hc]
    exact hanswer

/-- What `RpcCallWithIPList` gives for a member is the failure it starts with or what its call
returned. -/
theorem foldl_rpcComplete_mem {n : Nat} (cs : List (Completion n)) :
    ∀ (st : RpcState n) (i : Fin n),
      (cs.foldl rpcComplete st).responses i = st.responses i ∨
        ∃ c ∈ cs, c.index = i ∧ (cs.foldl rpcComplete st).responses i = (c.value, c.ret) := by
  induction cs with
  | nil => exact fun st i => .inl rfl
  | cons c cs ih =>
    intro st i
    have hhead : (rpcComplete st c).responses i = st.responses i ∨
        c.index = i ∧ (rpcComplete st c).responses i = (c.value, c.ret) := by
      unfold rpcComplete
      by_cases hclosed : st.closed = true
      · simp [hclosed]
      · by_cases hi : c.index = i
        · subst hi
          refine .inr ⟨rfl, ?_⟩
          by_cases hret : c.ret = 0 <;> simp [hclosed, hret]
        · refine .inl ?_
          by_cases hret : c.ret = 0 <;>
            simp [hclosed, hret, Function.update_of_ne (Ne.symm hi)]
    rw [List.foldl_cons]
    rcases ih (rpcComplete st c) i with hrest | ⟨c', hc', hi, hrest⟩
    · rcases hhead with hhead | ⟨hi, hhead⟩
      · exact .inl (hrest.trans hhead)
      · exact .inr ⟨c, List.mem_cons_self, hi, hrest.trans hhead⟩
    · exact .inr ⟨c', List.mem_cons_of_mem _ hc', hi, hrest⟩

theorem Reading.Answers.response {P : Nat → RpcMasterInfo → Prop} {r : Reading}
    (h : r.Answers codec P) (i : Fin r.members.length) :
    Tells codec (P (r.members.get i)) (rpcCallWithIPList r.run i) := by
  rcases foldl_rpcComplete_mem r.run.completions {} i with hnone | ⟨c, hc, rfl, hresponse⟩
  · intro hret
    rw [rpcCallWithIPList, hnone] at hret
    exact absurd (show (-202 : Int) = 0 from hret) (by decide)
  · rw [rpcCallWithIPList, hresponse]
    exact h.arrived c hc

/-- What is kept of the answers is what the caller started with or one of the answers. -/
theorem collectAnswers_newerMaster {n : Nat} {decode : Fin n → Bytes → Option GlobalMaster}
    {responses : Fin n → Bytes × Int} {Q : GlobalMaster → Prop}
    (hanswers : ∀ i answer, (responses i).2 = 0 → decode i (responses i).1 = some answer → Q answer)
    (l : List (Fin n)) : ∀ c : Collected GlobalMaster, Q c.found →
      Q (l.foldl (collectAnswer decode newerMaster responses) c).found := by
  induction l with
  | nil => exact fun c h => h
  | cons i l ih =>
    intro c h
    rw [List.foldl_cons]
    apply ih
    obtain ⟨answer, hanswer, hused, heq⟩ | ⟨ret, -, -, heq⟩ :=
      @collectAnswer_cases n _ _ decode newerMaster responses c i
    · rw [heq]
      simp only [newerMaster]
      split
      · exact hanswers i answer hused.1 hanswer
      · exact h
    · rw [heq]
      exact h

/-- The result of a call is nothing or what a member has told. -/
theorem Reading.Answers.result {P : RpcMasterInfo → Prop} {Q : Bytes → Nat → Prop} {r : Reading}
    (h : r.Answers codec fun _ => P) (hPQ : ∀ info, P info → Q info.ip info.version)
    (clocks : Nat → Nat × Nat) (requireMajority : Bool) :
    (r.result codec clocks requireMajority).2 = {} ∨
      Q (r.result codec clocks requireMajority).2.ip
        (r.result codec clocks requireMajority).2.version := by
  have hfound : (r.result codec clocks requireMajority).2 =
      (collectAnswers (fun i : Fin r.members.length => decodeMasterInfo codec.parse (clocks i))
        newerMaster (rpcCallWithIPList r.run) {}).found := by
    simp only [Reading.result, Client.getGlobalMaster]
    split <;> rfl
  rw [hfound]
  refine collectAnswers_newerMaster (Q := fun m => m = {} ∨ Q m.ip m.version) ?_ _ _ (.inl rfl)
  intro i answer hret hanswer
  obtain ⟨info, hparse, hinfo⟩ := h.response i hret
  simp only [decodeMasterInfo, hparse, Option.map_some, Option.some.injEq] at hanswer
  rw [← hanswer]
  exact .inr (hPQ info hinfo)

theorem Reading.heardFromServer_eq {r : Reading} {clocks : Nat → Nat × Nat} {now : Nat}
    {lost : Bool} {heard : GlobalMaster}
    (h : r.heardFromServer codec clocks now lost = some heard) :
    (r.result codec clocks true).1 = 0 ∧ heard = (r.result codec clocks true).2 := by
  simp only [Reading.heardFromServer, Option.ite_none_left_eq_some] at h
  exact getMaster_answerOf h.2

theorem Reading.heardDirectly_eq {r : Reading} {clocks : Nat → Nat × Nat} {heard : GlobalMaster}
    (h : r.heardDirectly codec clocks = some heard) :
    heard = (r.result codec clocks false).2 := by
  simp only [Reading.heardDirectly, Option.ite_none_right_eq_some, Option.some.injEq] at h
  exact h.2.symm

/-! ## What one step of a proxy can do -/

/-- The steps of a proxy: a call begins, a member answers, a call to a member returns, or the call
in progress is over and the cache may be set. -/
inductive ViewTrans (codec : Codec RpcMasterInfo fun _ => True) (cfg : ProxyConfig) (c : Cluster)
    (s : Viewer) : ViewAction → Viewer → Prop
  | server (members : List Nat) (hidle : s.asking.reading = none) :
      ViewTrans codec cfg c s (.getMaster members)
        { s with asking := .server { members := members } }
  | direct (members : List Nat) (hidle : s.asking.reading = none) :
      ViewTrans codec cfg c s (.getGlobalMaster members)
        { s with asking := .direct { members := members } }
  | serve {i : Nat} {changing : Bool} (r : Reading) (j : Fin r.members.length)
      (hr : s.asking.reading = some r) :
      ViewTrans codec cfg c s (.serve i changing)
        { s with asking := s.asking.withReading (r.serve j (answerOf codec
          (realGetLocalMasterInfo c.now (r.members.get j) changing
            (c.nodes (r.members.get j)).master))) }
  | arrive {i : Nat} (r r' : Reading) (j : Fin r.members.length) (answer : Bytes × Int)
      (hr : s.asking.reading = some r) (hsent : r.sent j = some answer)
      (hr' : r.complete j answer = some r') :
      ViewTrans codec cfg c s (.arrive i) { s with asking := s.asking.withReading r' }
  | fail {i : Nat} {ret : Int} (r r' : Reading) (j : Fin r.members.length)
      (hr : s.asking.reading = some r) (hret : ret ≠ 0) (hr' : r.complete j ([], ret) = some r') :
      ViewTrans codec cfg c s (.fail i ret) { s with asking := s.asking.withReading r' }
  | heard {clocks : Nat → Nat × Nat} {now : Nat} {lost : Bool} (r : Reading)
      (answer global : Option GlobalMaster) (hr : s.asking.reading = some r)
      (hfrom : ∀ heard, answer = some heard ∨ global = some heard →
        ∃ requireMajority, heard = (r.result codec clocks requireMajority).2) :
      ViewTrans codec cfg c s (.finish clocks now lost)
        { cache := s.cache.updateMasterStatus cfg now answer global, asking := .idle }
  | unheard {clocks : Nat → Nat × Nat} {now : Nat} {lost : Bool} (asking : Asking)
      (hnone : asking.reading = none) :
      ViewTrans codec cfg c s (.finish clocks now lost) { s with asking := asking }
  | membership (answer : Option (List Bytes)) :
      ViewTrans codec cfg c s (.updateMembership answer)
        { s with cache := s.cache.updateMembership answer }

theorem Viewer.atMember_eq_some {s s' : Viewer} {i : Nat}
    {f : (r : Reading) → Fin r.members.length → Option Reading} (h : s.atMember i f = some s') :
    ∃ r r' j, s.asking.reading = some r ∧ f r j = some r' ∧
      s' = { s with asking := s.asking.withReading r' } := by
  simp only [Viewer.atMember] at h
  split at h
  · next r hr =>
    simp only [Option.dite_none_right_eq_some, Option.map_eq_some_iff] at h
    obtain ⟨hi, r', hr', rfl⟩ := h
    exact ⟨r, r', ⟨i, hi⟩, hr, hr', rfl⟩
  · cases h

theorem viewTrans_of_finish {cfg : ProxyConfig} {c : Cluster} {s s' : Viewer}
    {clocks : Nat → Nat × Nat} {now : Nat} {lost : Bool}
    (h : finishAsking codec cfg clocks now lost s = some s') :
    ViewTrans codec cfg c s (.finish clocks now lost) s' := by
  unfold finishAsking at h
  cases hasking : s.asking with
  | idle => simp [hasking] at h
  | serverDead => simp [hasking] at h
  | direct r =>
    simp only [hasking, Option.some.injEq] at h
    subst h
    refine .heard r _ _ (by rw [hasking]; rfl) fun heard hheard => ?_
    exact ⟨false, Reading.heardDirectly_eq (hheard.resolve_left (by simp))⟩
  | server r =>
    simp only [hasking] at h
    split at h
    · next heard hheard =>
      cases h
      refine .heard r _ _ (by rw [hasking]; rfl) fun heard' hheard' => ?_
      obtain rfl : heard = heard' := Option.some.inj (hheard'.resolve_right (by simp))
      exact ⟨true, (Reading.heardFromServer_eq hheard).2⟩
    · split at h
      · cases h
        exact .unheard _ rfl
      · cases h
        exact .unheard _ rfl

/-- Every step of a proxy is one of these. -/
theorem viewTrans_of_step {cfg : ProxyConfig} {c : Cluster} {s s' : Viewer} {a : ViewAction}
    (h : viewStep codec cfg c s a = some s') : ViewTrans codec cfg c s a s' := by
  cases a with
  | getMaster members =>
    simp only [viewStep] at h
    split at h
    · next hidle =>
      simp only [Option.ite_none_right_eq_some, Option.some.injEq] at h
      rw [← h.2]
      exact .server members (by rw [hidle]; rfl)
    · cases h
  | getGlobalMaster members =>
    simp only [viewStep] at h
    split at h
    · next hdead =>
      simp only [Option.ite_none_right_eq_some, Option.some.injEq] at h
      rw [← h.2]
      exact .direct members (by rw [hdead]; rfl)
    · cases h
  | updateMembership answer =>
    simp only [viewStep] at h
    split at h
    · cases h
      exact .membership answer
    · cases h
  | serve i changing =>
    simp only [viewStep] at h
    obtain ⟨r, r', j, hr, hr', rfl⟩ := Viewer.atMember_eq_some h
    simp only [Option.ite_none_right_eq_some, Option.some.injEq] at hr'
    rw [← hr'.2]
    exact .serve r j hr
  | arrive i =>
    simp only [viewStep] at h
    obtain ⟨r, r', j, hr, hr', rfl⟩ := Viewer.atMember_eq_some h
    obtain ⟨answer, hsent, hr'⟩ := Option.bind_eq_some_iff.mp hr'
    exact .arrive r r' j answer hr hsent hr'
  | fail i ret =>
    simp only [viewStep] at h
    obtain ⟨r, r', j, hr, hr', rfl⟩ := Viewer.atMember_eq_some h
    simp only [Option.ite_none_right_eq_some] at hr'
    exact .fail r r' j hr hr'.1 hr'.2
  | finish clocks now lost => exact viewTrans_of_finish h

end PhxSql.Proxy
