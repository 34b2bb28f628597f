import PhxSql.Master.RecordHistory
import PhxSql.Proxy.GroupView

/-!
# What the proxies know of the master

Every answer on its way, every result of a call and every cache names the master of a point of the
group's log with the version of that point. The version of an answer has 32 bits; as long as the
group has had fewer than `2 ^ 32` records, that is the version of the record.

A call that the binlog server answers cannot miss what a majority of the members already knew when
the call began: each answer is given after that, the record of a node that does not restart only
moves on, and more than half and at least half of the members have one in common.
-/

set_option autoImplicit false

namespace PhxSql.Proxy

open PhxSql.Proto PhxSql.Client PhxSql.Master PhxSql.Lib.Transition

variable {codec : Codec RpcMasterInfo fun _ => True} {cfg : Config} {cfgs : Nat → ProxyConfig}

/-! ## Points of the log -/

/-- The master of a point of the log, with its version as an answer carries it. -/
def Names (log : List Instance) (ip : Bytes) (version : Nat) : Prop :=
  ∃ L, L <+: log ∧ ip = getIP (logState L).svrId ∧ version = (logState L).version % 2 ^ 32

theorem Names.mono {log log' : List Instance} {ip : Bytes} {version : Nat}
    (h : Names log ip version) (hle : log <+: log') : Names log' ip version := by
  obtain ⟨L, hL, hnames⟩ := h
  exact ⟨L, hL.trans hle, hnames⟩

theorem version_mod_of_isPrefix {log L : List Instance} (hlog : BuiltLog log) (hL : L <+: log)
    (hfew : (logState log).version < 2 ^ 32) :
    (logState L).version % 2 ^ 32 = (logState L).version :=
  Nat.mod_eq_of_lt (Nat.lt_of_le_of_lt (hlog.version_mono hL) hfew)

theorem Names.agree {log : List Instance} (hlog : BuiltLog log)
    (hfew : (logState log).version < 2 ^ 32) {ip ip' : Bytes} {version : Nat}
    (h : Names log ip version) (h' : Names log ip' version) : ip = ip' := by
  obtain ⟨L, hL, rfl, hver⟩ := h
  obtain ⟨L', hL', rfl, hver'⟩ := h'
  rw [version_mod_of_isPrefix hlog hL hfew] at hver
  rw [version_mod_of_isPrefix hlog hL' hfew] at hver'
  rw [hlog.eq_of_version hL hL' (hver.symm.trans hver')]

/-! ## Answers -/

/-- What a member tells when it answers is what its record says. -/
theorem tells_local {P : RpcMasterInfo → Prop} {now own : Nat} {changing : Bool}
    {master : MasterInfo}
    (h : ∀ info : RpcMasterInfo, info.ip = getIP master.svrId →
      info.version = master.version % 2 ^ 32 → P info) :
    Tells codec P (answerOf codec (realGetLocalMasterInfo now own changing master)) := by
  intro hret
  have herror : ∀ ret, realGetLocalMasterInfo now own changing master = .error ret → ret ≠ 0 := by
    intro ret herr
    simp only [realGetLocalMasterInfo] at herr
    split at herr
    · cases herr
      decide
    · cases herr
  obtain ⟨info, hinfo, hparse⟩ := parse_answerOf hret herror
  refine ⟨info, hparse, ?_⟩
  simp only [realGetLocalMasterInfo] at hinfo
  split at hinfo
  · cases hinfo
  · cases hinfo
    exact h _ rfl rfl

/-- A node that agrees with the log answers with a point of the log. -/
theorem tells_names {c : Cluster} (h : LogInv c) (n : Nat) (changing : Bool) :
    Tells codec (fun info => Names c.log info.ip info.version)
      (answerOf codec (realGetLocalMasterInfo c.now n changing (c.nodes n).master)) := by
  obtain ⟨L, hL, -, hm⟩ := h.nodes n
  refine tells_local fun info hip hver => ⟨L, hL, ?_, ?_⟩
  · rw [hip, ← hm, erase_svrId]
  · rw [hver, ← hm, erase_version]

/-! ## The cache -/

/-- What the cache is set to: something heard, unless nothing changes. -/
theorem updateMasterStatus_cases (cfg : ProxyConfig) (now : Nat)
    (answer global : Option GlobalMaster) (c : GroupStatusCache) :
    c.updateMasterStatus cfg now answer global = c ∨
      ∃ heard, heardMaster cfg c answer global = some heard ∧
        isMasterValid heard.ip heard.expireTime now = true ∧
        c.masterStatus.version ≤ heard.version ∧
        (c.masterStatus.version < heard.version ∨
          heard.expireTime < c.masterStatus.expiredTime) ∧
        c.updateMasterStatus cfg now answer global =
          { c with masterStatus := ⟨heard.ip, heard.expireTime, heard.version⟩ } := by
  unfold GroupStatusCache.updateMasterStatus
  by_cases hspec : cfg.specifiedMasterIP ≠ []
  · exact .inl (if_pos hspec)
  rw [if_neg hspec]
  cases hheard : heardMaster cfg c answer global with
  | none => exact .inl rfl
  | some heard =>
    dsimp only
    by_cases hvalid : isMasterValid heard.ip heard.expireTime now = false
    · exact .inl (if_pos hvalid)
    rw [if_neg hvalid]
    by_cases hold : heard.version < c.masterStatus.version
    · exact .inl (if_pos hold)
    rw [if_neg hold]
    by_cases hnew : c.masterStatus.version < heard.version ∨
        heard.expireTime < c.masterStatus.expiredTime
    · exact .inr ⟨heard, rfl, Bool.eq_true_of_not_eq_false hvalid, Nat.le_of_not_lt hold, hnew,
        if_pos hnew⟩
    · exact .inl (if_neg hnew)

/-- The version of the cache never goes back. -/
theorem version_le_updateMasterStatus (cfg : ProxyConfig) (now : Nat)
    (answer global : Option GlobalMaster) (c : GroupStatusCache) :
    c.masterStatus.version ≤ (c.updateMasterStatus cfg now answer global).masterStatus.version := by
  rcases updateMasterStatus_cases cfg now answer global c with heq | ⟨heard, -, -, hle, -, heq⟩
  · rw [heq]
  · rw [heq]
    exact hle

/-- A valid answer of the binlog server is not newer than the cache after it. -/
theorem version_le_of_heard {cfg : ProxyConfig} (hspec : cfg.specifiedMasterIP = []) {now : Nat}
    {heard : GlobalMaster} (hvalid : isMasterValid heard.ip heard.expireTime now = true)
    (c : GroupStatusCache) :
    heard.version ≤
      (c.updateMasterStatus cfg now (some heard) none).masterStatus.version := by
  simp only [GroupStatusCache.updateMasterStatus, hspec, heardMaster, hvalid, ne_eq,
    not_true_eq_false, Bool.true_eq_false, if_false]
  split
  · next hlt => exact Nat.le_of_lt hlt
  · split
    · exact le_rfl
    · next hle hnot => exact Nat.le_of_not_lt fun hlt => hnot (.inl hlt)

/-- The cache is empty or names the master of a point of the log. -/
def Cached (log : List Instance) (status : MasterStatus) : Prop :=
  status = {} ∨ 0 < status.version ∧ Names log status.masterIp status.version

theorem Cached.mono {log log' : List Instance} {status : MasterStatus} (h : Cached log status)
    (hle : log <+: log') : Cached log' status :=
  h.imp_right fun hnames => ⟨hnames.1, hnames.2.mono hle⟩

theorem heardMaster_mem {cfg : ProxyConfig} {c : GroupStatusCache}
    {answer global : Option GlobalMaster} {heard : GlobalMaster}
    (h : heardMaster cfg c answer global = some heard) :
    answer = some heard ∨ global = some heard := by
  cases answer with
  | some heard' => exact .inl h
  | none =>
    simp only [heardMaster, Option.ite_none_left_eq_some, Option.bind_eq_some_iff,
      Option.some.injEq] at h
    obtain ⟨-, heard', hglobal, -, rfl⟩ := h
    exact .inr hglobal

theorem Cached.updateMasterStatus {log : List Instance} {c : GroupStatusCache}
    (h : Cached log c.masterStatus) {cfg : ProxyConfig} {now : Nat}
    {answer global : Option GlobalMaster}
    (hheard : ∀ heard, answer = some heard ∨ global = some heard →
      heard = {} ∨ Names log heard.ip heard.version) :
    Cached log (c.updateMasterStatus cfg now answer global).masterStatus := by
  rcases updateMasterStatus_cases cfg now answer global c with
    heq | ⟨heard, hfrom, hvalid, hle, hnew, heq⟩
  · rw [heq]
    exact h
  · rw [heq]
    rcases hheard heard (heardMaster_mem hfrom) with rfl | hnames
    · -- The record to start from has no address and is not valid.
      exact absurd hvalid (by simp [isMasterValid])
    · refine .inr ⟨?_, hnames⟩
      show 0 < heard.version
      rcases h with hempty | ⟨hpos, -⟩
      · rw [hempty] at hnew
        exact hnew.resolve_right (Nat.not_lt_zero _)
      · exact Nat.lt_of_lt_of_le hpos hle

/-! ## The invariant -/

/-- What one proxy knows agrees with the log. -/
structure ViewInv (codec : Codec RpcMasterInfo fun _ => True) (log : List Instance)
    (s : Viewer) : Prop where
  answers : ∀ r, s.asking.reading = some r →
    r.Answers codec fun _ info => Names log info.ip info.version
  cached : Cached log s.cache.masterStatus

theorem ViewInv.mono {log log' : List Instance} {s : Viewer} (h : ViewInv codec log s)
    (hle : log <+: log') : ViewInv codec log' s :=
  ⟨fun r hr => (h.answers r hr).mono fun _ _ hnames => hnames.mono hle, h.cached.mono hle⟩

theorem Asking.reading_withReading {asking : Asking} {r r' : Reading}
    (h : asking.reading = some r) : (asking.withReading r').reading = some r' := by
  cases asking with
  | idle => cases h
  | serverDead => cases h
  | server _ => rfl
  | direct _ => rfl

/-- A proxy whose call is in another state. -/
theorem ViewInv.withReading {log : List Instance} {s : Viewer} (h : ViewInv codec log s)
    {r r' : Reading} (hr : s.asking.reading = some r)
    (hr' : r'.Answers codec fun _ info => Names log info.ip info.version) :
    ViewInv codec log { s with asking := s.asking.withReading r' } := by
  refine ⟨fun r'' hr'' => ?_, h.cached⟩
  rw [Asking.reading_withReading hr] at hr''
  cases hr''
  exact hr'

theorem viewInv_step {pcfg : ProxyConfig} {c : Cluster} (hc : LogInv c) {s s' : Viewer}
    {a : ViewAction} (h : ViewInv codec c.log s) (hs : viewStep codec pcfg c s a = some s') :
    ViewInv codec c.log s' := by
  cases viewTrans_of_step hs with
  | server members _ =>
    refine ⟨fun r hr => ?_, h.cached⟩
    cases hr
    exact Reading.answers_new _ members
  | direct members _ =>
    refine ⟨fun r hr => ?_, h.cached⟩
    cases hr
    exact Reading.answers_new _ members
  | serve r j hr => exact h.withReading hr ((h.answers r hr).serve (tells_names hc _ _))
  | arrive r r' j answer hr hsent hr' =>
    exact h.withReading hr
      ((h.answers r hr).complete ((h.answers r hr).sent j answer hsent) hr').2
  | fail r r' j hr hret hr' =>
    exact h.withReading hr ((h.answers r hr).complete (fun hzero => absurd hzero hret) hr').2
  | heard r answer global hr hfrom =>
    refine ⟨(fun r' hr' => by cases hr'), h.cached.updateMasterStatus fun heard hheard => ?_⟩
    obtain ⟨requireMajority, rfl⟩ := hfrom heard hheard
    exact (h.answers r hr).result (fun _ hnames => hnames) _ _
  | unheard asking hnone => exact ⟨(fun r hr => by rw [hnone] at hr; cases hr), h.cached⟩
  | membership answer =>
    refine ⟨h.answers, ?_⟩
    cases answer with
    | none => exact h.cached
    | some members =>
      simp only [GroupStatusCache.updateMembership]
      split
      · exact h.cached
      · exact h.cached

/-- The version a proxy has never goes back. -/
theorem version_le_of_viewStep {pcfg : ProxyConfig} {c : Cluster} {s s' : Viewer}
    {a : ViewAction} (hs : viewStep codec pcfg c s a = some s') :
    s.cache.masterStatus.version ≤ s'.cache.masterStatus.version := by
  cases viewTrans_of_step hs with
  | heard r answer global _ _ => exact version_le_updateMasterStatus ..
  | membership answer =>
    cases answer with
    | none => exact le_rfl
    | some members =>
      simp only [GroupStatusCache.updateMembership]
      split <;> exact le_rfl
  | server members _ => exact le_rfl
  | direct members _ => exact le_rfl
  | serve r j _ => exact le_rfl
  | arrive r r' j answer _ _ _ => exact le_rfl
  | fail r r' j _ _ _ => exact le_rfl
  | unheard asking _ => exact le_rfl

/-- The group agrees with its log, and so do all proxies. -/
structure GroupInv (codec : Codec RpcMasterInfo fun _ => True) (g : Group) : Prop where
  cluster : LogInv g.cluster
  proxies : ∀ p, ViewInv codec g.cluster.log (g.proxies p)

theorem groupInv_init : GroupInv codec {} where
  cluster := logInv_init Config.twentySeconds
  proxies _ := ⟨(fun _ hr => by cases hr), .inl rfl⟩

/-- One step keeps the agreement; the log grows and no version goes back. -/
theorem groupInv_step {g g' : Group} {a : GroupAction} (h : GroupInv codec g)
    (hs : groupStep codec cfg cfgs g a = some g') :
    GroupInv codec g' ∧ g.cluster.log <+: g'.cluster.log ∧
      ∀ p, (g.proxies p).cache.masterStatus.version ≤
        (g'.proxies p).cache.masterStatus.version := by
  cases a with
  | cluster a =>
    obtain ⟨c, hc, rfl⟩ := Option.map_eq_some_iff.mp hs
    have hlog := log_prefix_of_step hc
    exact ⟨⟨logInv_step h.cluster hc, fun p => (h.proxies p).mono hlog⟩, hlog, fun _ => le_rfl⟩
  | proxy p a =>
    obtain ⟨s, hview, rfl⟩ := Option.map_eq_some_iff.mp hs
    refine ⟨⟨h.cluster, fun q => ?_⟩, List.prefix_rfl, fun q => ?_⟩
    · rcases eq_or_ne q p with rfl | hne
      · simp only [Function.update_self]
        exact viewInv_step h.cluster (h.proxies q) hview
      · simp only [Function.update_of_ne hne]
        exact h.proxies q
    · rcases eq_or_ne q p with rfl | hne
      · simp only [Function.update_self]
        exact version_le_of_viewStep hview
      · simp only [Function.update_of_ne hne]
        exact le_rfl

theorem groupInv_of_reachable {g : Group} (h : Reachable (groupSystem codec cfg cfgs) g) :
    GroupInv codec g := by
  apply h.invariant groupInv_init
  intro s a s' hinv _ hs
  exact (groupInv_step hinv hs).1

/-- Along a run the log grows and no version goes back. -/
theorem groupInv_later {g g' : Group} (h : GroupInv codec g)
    (h' : Reachable { groupSystem codec cfg cfgs with init := g } g') :
    GroupInv codec g' ∧ g.cluster.log <+: g'.cluster.log ∧
      ∀ p, (g.proxies p).cache.masterStatus.version ≤
        (g'.proxies p).cache.masterStatus.version := by
  induction h' with
  | init => exact ⟨h, List.prefix_rfl, fun _ => le_rfl⟩
  | step _ _ hs ih =>
    obtain ⟨hinv, hlog, hver⟩ := ih
    obtain ⟨hinv', hlog', hver'⟩ := groupInv_step hinv hs
    exact ⟨hinv', hlog.trans hlog', fun p => (hver p).trans (hver' p)⟩

/-- The master a proxy gives to its connections is that of a point of the log. -/
theorem GroupInv.getMaster {g : Group} (h : GroupInv codec g)
    (hfew : (logState g.cluster.log).version < 2 ^ 32) {p : Nat} {pcfg : ProxyConfig} {now : Nat}
    {ip : Bytes} (hspec : pcfg.specifiedMasterIP = [])
    (hip : (g.proxies p).cache.getMaster pcfg now = some ip) :
    ∃ L, L <+: g.cluster.log ∧ 0 < (logState L).svrId ∧ ip = getIP (logState L).svrId ∧
      (g.proxies p).cache.masterStatus.version = (logState L).version := by
  simp only [GroupStatusCache.getMaster, hspec, ne_eq, not_true_eq_false, if_false,
    Option.ite_none_right_eq_some, Option.some.injEq] at hip
  obtain ⟨hvalid, rfl⟩ := hip
  rcases (h.proxies p).cached with hempty | ⟨hpos, L, hL, hname, hver⟩
  · rw [hempty] at hvalid
    exact absurd hvalid (by simp [isMasterValid])
  · rw [version_mod_of_isPrefix h.cluster.built hL hfew] at hver
    refine ⟨L, hL, Nat.pos_of_ne_zero fun hzero => ?_, hname, hver⟩
    -- A log without a master has not given a version.
    rw [hver, (h.cluster.built.of_prefix hL).eq_default hzero] at hpos
    exact absurd hpos (Nat.lt_irrefl 0)

/-- Two caches with one version, at any two times of a run, name one master. -/
theorem Cached.agree {log : List Instance} (hlog : BuiltLog log)
    (hfew : (logState log).version < 2 ^ 32) {status status' : MasterStatus}
    (h : Cached log status) (h' : Cached log status')
    (hver : status.version = status'.version) : status.masterIp = status'.masterIp := by
  rcases h with rfl | ⟨hpos, hnames⟩
  · rcases h' with rfl | ⟨hpos', -⟩
    · rfl
    · rw [← hver] at hpos'
      exact absurd hpos' (Nat.lt_irrefl 0)
  · rcases h' with rfl | ⟨-, hnames'⟩
    · rw [hver] at hpos
      exact absurd hpos (Nat.lt_irrefl 0)
    · rw [← hver] at hnames'
      exact hnames.agree hlog hfew hnames'

/-- Proxies never disagree about the master of a version: whatever the order in which members
answer, fail and restart and the group goes on, a proxy that serves connections names the master of
a point of the group's log, two proxies that hold the same version, at the same time or at
different times, hold the same master, and no proxy goes back to an earlier version. -/
theorem proxies_agree {g g' : Group} (h : Reachable (groupSystem codec cfg cfgs) g)
    (h' : Reachable { groupSystem codec cfg cfgs with init := g } g')
    (hfew : (logState g'.cluster.log).version < 2 ^ 32) (p q : Nat) :
    (∀ now ip, (cfgs p).specifiedMasterIP = [] →
      (g.proxies p).cache.getMaster (cfgs p) now = some ip →
      ∃ L, L <+: g.cluster.log ∧ 0 < (logState L).svrId ∧ ip = getIP (logState L).svrId ∧
        (g.proxies p).cache.masterStatus.version = (logState L).version) ∧
    ((g.proxies p).cache.masterStatus.version = (g'.proxies q).cache.masterStatus.version →
      (g.proxies p).cache.masterStatus.masterIp = (g'.proxies q).cache.masterStatus.masterIp) ∧
    (g.proxies p).cache.masterStatus.version ≤ (g'.proxies p).cache.masterStatus.version := by
  have hinv := groupInv_of_reachable h
  obtain ⟨hinv', hlog, hver⟩ := groupInv_later hinv h'
  have hfew' : (logState g.cluster.log).version < 2 ^ 32 :=
    Nat.lt_of_le_of_lt (hinv'.cluster.built.version_mono hlog) hfew
  refine ⟨fun now ip hspec hip => hinv.getMaster hfew' hspec hip, ?_, hver p⟩
  exact ((hinv.proxies p).cached.mono hlog).agree hinv'.cluster.built hfew (hinv'.proxies q).cached

section Samples

/-- Proxies that use their binlog servers. -/
def sampleProxies (_ : Nat) : ProxyConfig where
  svrIp := []
  svrPort := 54321
  mysqlPort := 11111

def sampleSystem : System Group GroupAction :=
  groupSystem rpcCodec .twentySeconds sampleProxies

/-- A machine whose clock shows one time while it decodes. -/
def clockAt (now : Nat) : Nat → Nat × Nat :=
  fun _ => (now, now)

/-- Node 1 becomes master. -/
def firstMaster : List GroupAction :=
  [.tick 100, .setMaster 1 none, .leaseCheck 0, .sendMasterInfo 0, .choose 0 1, .execute 1 0,
    .execute 2 0, .execute 3 0].map .cluster

/-- Node 2 becomes master after the lease of node 1; node 1 has not executed that. -/
def secondMaster : List GroupAction :=
  [.tick 21, .setMaster 2 none, .leaseCheck 0, .sendMasterInfo 0, .choose 1 2, .execute 2 0,
    .execute 3 0].map .cluster

/-- Proxy 1 hears of node 1; the answers to proxy 3 are given and still on their way. -/
def earlyRun : List GroupAction :=
  firstMaster ++
    [.getMaster [1, 2, 3], .serve 0 false, .serve 1 false, .arrive 1, .arrive 0,
      .finish (clockAt 100) 100 false].map (.proxy 1) ++
    [.getMaster [1, 2, 3], .serve 0 false, .serve 1 false].map (.proxy 3)

/-- They arrive after node 2 has become master. -/
def lateRun : List GroupAction :=
  secondMaster ++
    [.arrive 0, .fail 2 (-202), .arrive 1, .finish (clockAt 121) 121 false].map (.proxy 3)

/-- Proxy 3 hears of the old master when there is a new one, and names the same master as proxy 1. -/
theorem proxies_agree_lateAnswer :
    ∃ g g', run sampleSystem sampleSystem.init earlyRun = some g ∧
      run { sampleSystem with init := g } g lateRun = some g' ∧
      (g.proxies 1).cache.masterStatus.version = 1 ∧
      (g'.proxies 3).cache.masterStatus.version = 1 ∧
      (g.proxies 1).cache.masterStatus.masterIp = (g'.proxies 3).cache.masterStatus.masterIp := by
  have hs : (run sampleSystem sampleSystem.init earlyRun).bind (fun g =>
      (run { sampleSystem with init := g } g lateRun).map fun g' =>
        ((g.proxies 1).cache.masterStatus.version, (g'.proxies 3).cache.masterStatus.version,
          (logState g'.cluster.log).version)) = some (1, 1, 2) := by
    decide +kernel
  obtain ⟨g, hearly, hs⟩ := Option.bind_eq_some_iff.mp hs
  obtain ⟨g', hlate, hfacts⟩ := Option.map_eq_some_iff.mp hs
  simp only [Prod.mk.injEq] at hfacts
  obtain ⟨hver, hver', hlog⟩ := hfacts
  have hreach : Reachable sampleSystem g := reachable_of_run hearly
  have hreach' : Reachable { sampleSystem with init := g } g' := reachable_of_run hlate
  exact ⟨g, g', hearly, hlate, hver, hver',
    (proxies_agree hreach hreach' (by rw [hlog]; decide) 1 3).2.1 (hver.trans hver'.symm)⟩

end Samples

/-! ## Answers are not stale -/

/-- The steps that may fall between the beginning and the end of a call of `p`: no node restarts. -/
def undisturbed (p : Nat) : GroupAction → Bool
  | .cluster (.restart _ _ _) => false
  | .proxy q (.finish _ _ _) => q != p
  | _ => true

/-- The answer of the node `n` is from a record that is not older than its record in `base`. -/
def NotOlder (base : Cluster) (log : List Instance) (n : Nat) (info : RpcMasterInfo) : Prop :=
  ∃ version, (base.nodes n).master.version ≤ version ∧ version ≤ (logState log).version ∧
    info.version = version % 2 ^ 32

/-- The call of `p` that began when the nodes were as in `base` is in progress. -/
structure CallInv (codec : Codec RpcMasterInfo fun _ => True) (base : Cluster) (p : Nat)
    (members : List Nat) (g : Group) : Prop where
  cluster : LogInv g.cluster
  nodes : ∀ n, (base.nodes n).master.version ≤ (g.cluster.nodes n).master.version
  asking : ∃ r, (g.proxies p).asking = .server r ∧ r.members = members ∧
    r.Answers codec (NotOlder base g.cluster.log)

theorem CallInv.viewStep {base : Cluster} {p : Nat} {members : List Nat} {g : Group}
    (h : CallInv codec base p members g) {pcfg : ProxyConfig} {a : ViewAction} {s : Viewer}
    (hs : viewStep codec pcfg g.cluster (g.proxies p) a = some s)
    (hok : undisturbed p (.proxy p a) = true) :
    ∃ r, s.asking = .server r ∧ r.members = members ∧
      r.Answers codec (NotOlder base g.cluster.log) := by
  obtain ⟨r, hasking, hmembers, hanswers⟩ := h.asking
  have hreading : (g.proxies p).asking.reading = some r := by rw [hasking]; rfl
  -- The step is one of this call.
  have hsame : ∀ {r' : Reading}, (g.proxies p).asking.reading = some r' → r' = r := by
    intro r' hr'
    rw [hreading] at hr'
    exact (Option.some.inj hr').symm
  cases viewTrans_of_step hs with
  | server members hidle => rw [hreading] at hidle; cases hidle
  | direct members hidle => rw [hreading] at hidle; cases hidle
  | serve r' j hr =>
    obtain rfl := hsame hr
    refine ⟨r'.serve j _, by rw [hasking]; rfl, hmembers, hanswers.serve ?_⟩
    obtain ⟨L, hL, -, hm⟩ := h.cluster.nodes (r'.members.get j)
    refine tells_local fun info _ hver => ⟨_, h.nodes _, ?_, hver⟩
    rw [← erase_version, hm]
    exact h.cluster.built.version_mono hL
  | arrive r' r'' j answer hr hsent hr'' =>
    obtain rfl := hsame hr
    obtain ⟨hmem, hanswers'⟩ := hanswers.complete (hanswers.sent j answer hsent) hr''
    exact ⟨r'', by rw [hasking]; rfl, hmem.trans hmembers, hanswers'⟩
  | fail r' r'' j hr hret hr'' =>
    obtain rfl := hsame hr
    obtain ⟨hmem, hanswers'⟩ := hanswers.complete (fun hzero => absurd hzero hret) hr''
    exact ⟨r'', by rw [hasking]; rfl, hmem.trans hmembers, hanswers'⟩
  | heard r' answer global _ _ => exact absurd hok (by simp [undisturbed])
  | unheard asking _ => exact absurd hok (by simp [undisturbed])
  | membership answer => exact ⟨r, hasking, hmembers, hanswers⟩

theorem NotOlder.mono {base : Cluster} {log log' : List Instance} (hlog : BuiltLog log')
    (hle : log <+: log') {n : Nat} {info : RpcMasterInfo} (h : NotOlder base log n info) :
    NotOlder base log' n info := by
  obtain ⟨version, hbase, hmax, hver⟩ := h
  exact ⟨version, hbase, hmax.trans (hlog.version_mono hle), hver⟩

theorem callInv_step {base : Cluster} {p : Nat} {members : List Nat} {g g' : Group}
    {a : GroupAction} (h : CallInv codec base p members g) (hok : undisturbed p a = true)
    (hs : groupStep codec cfg cfgs g a = some g') : CallInv codec base p members g' := by
  cases a with
  | cluster a =>
    obtain ⟨c, hc, rfl⟩ := Option.map_eq_some_iff.mp hs
    have hinv := logInv_step h.cluster hc
    have hmoves : ∀ n, Moves c.log (g.cluster.nodes n).master (c.nodes n).master := by
      refine fun n => h.cluster.moves hc ?_
      cases a with
      | restart m i rand => exact absurd hok (by simp [undisturbed])
      | _ => simp [Action.restarted]
    refine ⟨hinv, fun n => (h.nodes n).trans ((hmoves n).version_le hinv.built), ?_⟩
    obtain ⟨r, hasking, hmembers, hanswers⟩ := h.asking
    exact ⟨r, hasking, hmembers,
      hanswers.mono fun _ _ hold => hold.mono hinv.built (log_prefix_of_step hc)⟩
  | proxy q a =>
    obtain ⟨s, hview, rfl⟩ := Option.map_eq_some_iff.mp hs
    refine ⟨h.cluster, h.nodes, ?_⟩
    rcases eq_or_ne p q with rfl | hne
    · simp only [Function.update_self]
      exact h.viewStep hview hok
    · simp only [Function.update_of_ne hne]
      exact h.asking

/-- The call that begins. -/
theorem callInv_begin {p : Nat} {members : List Nat} {g g' : Group} (h : LogInv g.cluster)
    (hs : groupStep codec cfg cfgs g (.proxy p (.getMaster members)) = some g') :
    CallInv codec g.cluster p members g' := by
  obtain ⟨s, hview, rfl⟩ := Option.map_eq_some_iff.mp hs
  refine ⟨h, fun _ => le_rfl, ?_⟩
  simp only [Function.update_self]
  cases viewTrans_of_step hview with
  | server members _ => exact ⟨_, rfl, rfl, Reading.answers_new _ _⟩

/-- A proxy with a master in its configuration asks nobody. -/
theorem specifiedMasterIP_of_begin {p : Nat} {members : List Nat} {g g' : Group}
    (hs : groupStep codec cfg cfgs g (.proxy p (.getMaster members)) = some g') :
    (cfgs p).specifiedMasterIP = [] := by
  obtain ⟨s, hview, -⟩ := Option.map_eq_some_iff.mp hs
  simp only [viewStep] at hview
  split at hview
  · exact (Option.ite_none_right_eq_some.mp hview).1
  · cases hview

/-- What the binlog server found is not older than what a majority knew when it was asked. -/
theorem CallInv.version_le {base : Cluster} {p v : Nat} {members : List Nat} {g : Group}
    (h : CallInv codec base p members g) (hfew : (logState g.cluster.log).version < 2 ^ 32)
    (hmajority : members.length < 2 * (Finset.univ.filter fun i : Fin members.length =>
      v ≤ (base.nodes (members.get i)).master.version).card) :
    ∃ r, (g.proxies p).asking = .server r ∧ ∀ clocks,
      (r.result codec clocks true).1 = 0 → v ≤ (r.result codec clocks true).2.version := by
  obtain ⟨r, hasking, rfl, hanswers⟩ := h.asking
  refine ⟨r, hasking, fun clocks hok => ?_⟩
  refine versionKept r.members.length _ v r.run _ {} hmajority ?_ hok
  intro i info hret hparse
  obtain ⟨info', hparse', version, hbase, hmax, hver⟩ := hanswers.response i hret
  rw [hparse] at hparse'
  cases hparse'
  rw [hver, Nat.mod_eq_of_lt (Nat.lt_of_le_of_lt hmax hfew)]
  exact hbase

/-- An update of the cache through the binlog server does not miss what a majority of the members
knew when it began, however the answers, failures and steps of the group fall: the master it hears
of has at least that version, and if its lease is not over the cache has at least that version
afterwards. -/
theorem heard_master_not_stale {g g₁ g₂ g₃ : Group} {p v : Nat} {members : List Nat}
    {clocks : Nat → Nat × Nat} {now : Nat} {lost : Bool}
    (h : Reachable (groupSystem codec cfg cfgs) g)
    (hbegin : groupStep codec cfg cfgs g (.proxy p (.getMaster members)) = some g₁)
    (hrun : ReachableBy { groupSystem codec cfg cfgs with init := g₁ }
      (fun _ a => undisturbed p a = true) g₂)
    (hend : groupStep codec cfg cfgs g₂ (.proxy p (.finish clocks now lost)) = some g₃)
    (hfew : (logState g₂.cluster.log).version < 2 ^ 32)
    (hmajority : members.length < 2 * (Finset.univ.filter fun i : Fin members.length =>
      v ≤ (g.cluster.nodes (members.get i)).master.version).card) :
    ∃ r, (g₂.proxies p).asking = .server r ∧
      ∀ heard, r.heardFromServer codec clocks now lost = some heard →
        v ≤ heard.version ∧
        (isMasterValid heard.ip heard.expireTime now = true →
          v ≤ (g₃.proxies p).cache.masterStatus.version) := by
  have hcall : CallInv codec g.cluster p members g₂ := by
    apply hrun.invariant (callInv_begin (groupInv_of_reachable h).cluster hbegin)
    intro s a s' hinv hok hs
    exact callInv_step hinv hok hs
  obtain ⟨r, hasking, hversion⟩ := hcall.version_le hfew hmajority
  refine ⟨r, hasking, fun heard hheard => ?_⟩
  obtain ⟨hret, hresult⟩ := Reading.heardFromServer_eq hheard
  have hle : v ≤ heard.version := hresult ▸ hversion clocks hret
  refine ⟨hle, fun hvalid => ?_⟩
  -- The end of the call hands this answer to the cache.
  obtain ⟨s, hview, rfl⟩ := Option.map_eq_some_iff.mp hend
  simp only [viewStep, finishAsking, hasking, hheard, Option.some.injEq] at hview
  subst hview
  simp only [Function.update_self]
  exact hle.trans (version_le_of_heard (specifiedMasterIP_of_begin hbegin) hvalid _)

/-- Node 1 answers with its old record and node 2 with the new one; the binlog server of proxy 1 does
not wait for node 3. -/
def answersRun : List GroupAction :=
  [.serve 0 false, .serve 1 false, .arrive 1, .arrive 0].map (.proxy 1)

/-- Nodes 2 and 3 know of the new master when proxy 1 asks; it hears of it although node 1, which
does not know of it, is one of the two that answer. -/
theorem heard_master_not_stale_oldAnswer :
    ∃ g g₁ g₂ g₃,
      run sampleSystem sampleSystem.init (firstMaster ++ secondMaster) = some g ∧
      sampleSystem.step g (.proxy 1 (.getMaster [1, 2, 3])) = some g₁ ∧
      checkedRun { sampleSystem with init := g₁ } (fun _ a => undisturbed 1 a = true) g₁
        answersRun = some g₂ ∧
      sampleSystem.step g₂ (.proxy 1 (.finish (clockAt 121) 121 false)) = some g₃ ∧
      2 ≤ (g₃.proxies 1).cache.masterStatus.version := by
  have hs : (run sampleSystem sampleSystem.init (firstMaster ++ secondMaster)).bind (fun g =>
      (sampleSystem.step g (.proxy 1 (.getMaster [1, 2, 3]))).bind fun g₁ =>
        (checkedRun { sampleSystem with init := g₁ } (fun _ a => undisturbed 1 a = true) g₁
          answersRun).bind fun g₂ =>
            (sampleSystem.step g₂ (.proxy 1 (.finish (clockAt 121) 121 false))).map fun _ =>
              (decide (3 < 2 * (Finset.univ.filter fun i : Fin 3 =>
                2 ≤ (g.cluster.nodes ([1, 2, 3].get i)).master.version).card),
                (logState g₂.cluster.log).version,
                ((g₂.proxies 1).asking.reading.bind fun r =>
                  r.heardFromServer rpcCodec (clockAt 121) 121 false).map fun heard =>
                    isMasterValid heard.ip heard.expireTime 121)) = some (true, 2, some true) := by
    decide +kernel
  obtain ⟨g, hg, hs⟩ := Option.bind_eq_some_iff.mp hs
  obtain ⟨g₁, hbegin, hs⟩ := Option.bind_eq_some_iff.mp hs
  obtain ⟨g₂, hchecked, hs⟩ := Option.bind_eq_some_iff.mp hs
  obtain ⟨g₃, hend, hfacts⟩ := Option.map_eq_some_iff.mp hs
  simp only [Prod.mk.injEq] at hfacts
  obtain ⟨hmajority, hlog, hvalid⟩ := hfacts
  obtain ⟨heard, hheard, hvalid⟩ := Option.map_eq_some_iff.mp hvalid
  have hreach : Reachable sampleSystem g := reachable_of_run hg
  have hrun : ReachableBy { sampleSystem with init := g₁ } (fun _ a => undisturbed 1 a = true) g₂ :=
    ReachableBy.checkedRun answersRun .init hchecked
  obtain ⟨r, hasking, hall⟩ := heard_master_not_stale hreach hbegin hrun hend
    (by rw [hlog]; decide) (of_decide_eq_true hmajority)
  rw [hasking] at hheard
  exact ⟨g, g₁, g₂, g₃, hg, hbegin, hchecked, hend, (hall heard hheard).2 hvalid⟩

end PhxSql.Proxy
