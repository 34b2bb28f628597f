import PhxSql.Master.Cluster

/-!
# The master records along the log

The record a node holds, apart from its expiry, is a function of the log: it is `logState` of the
entries the node knows. The version check of `MasterStorage::SetMaster` then works as a
compare-and-swap on that function. An entry was built from the record of some earlier point of the
log, records of different points have different versions (`BuiltLog.eq_or_version_lt`), and so an
entry that passes the check was built from the record it replaces (`BuiltLog.accepted_base`).

`LogInv` ties the cluster to these facts: the log, every node's record, every request and proposal
in flight and every checkpoint header.
-/

set_option autoImplicit false

namespace PhxSql.Master

open PhxSql.Proto PhxSql.Lib.Transition

/-! ## Executing the log without a clock -/

/-- The record after one more instance, without its expiry. -/
def logStep (m : MasterInfo) (e : Instance) : MasterInfo :=
  erase (executeInstance 0 0 0 e m).2

/-- The record after a log, without its expiry. -/
def logState (log : List Instance) : MasterInfo :=
  log.foldl logStep {}

@[simp] theorem logState_nil : logState [] = {} := rfl

@[simp] theorem logState_concat (L : List Instance) (e : Instance) :
    logState (L ++ [e]) = logStep (logState L) e := by
  simp [logState]

@[simp] theorem erase_logState (L : List Instance) : erase (logState L) = logState L := by
  rcases List.eq_nil_or_concat L with rfl | ⟨L', e, rfl⟩
  · rfl
  · rw [List.concat_eq_append, logState_concat]
    exact erase_erase _

/-- Executing an instance depends on the clock, the extension and the node in the expiry only. -/
theorem executeInstance_erase_congr (now rand own now' rand' own' : Nat) (e : Instance)
    {m m' : MasterInfo} (hm : erase m = erase m') :
    (executeInstance now rand own e m).1 = (executeInstance now' rand' own' e m').1 ∧
      erase (executeInstance now rand own e m).2 = erase (executeInstance now' rand' own' e m').2 := by
  unfold executeInstance
  cases e.chosen with
  | event => exact ⟨rfl, hm⟩
  | master p => exact smExecute_erase_congr _ _ _ _ _ _ _ _ hm

theorem erase_executeInstance (now rand own : Nat) (e : Instance) {m : MasterInfo}
    {L : List Instance} (hm : erase m = logState L) :
    erase (executeInstance now rand own e m).2 = logStep (logState L) e :=
  (executeInstance_erase_congr now rand own 0 0 0 e (by rw [hm, erase_logState])).2

/-- The entry `e` carries the proposal `p` and is accepted after the log `L`. -/
def Accepted (L : List Instance) (e : Instance) (p : Proposal) : Prop :=
  e.chosen = .master p ∧ (executeInstance 0 0 0 e (logState L)).1 = .ok

/-- When an entry is accepted. -/
theorem accepted_iff {L : List Instance} {e : Instance} {p : Proposal} :
    Accepted L e p ↔ e.chosen = .master p ∧ p.value.port.isSome = true ∧
      Accepts (logState L) { p.value with instanceId := e.id } := by
  refine and_congr_right fun hp => ?_
  simp only [executeInstance, hp, received]
  by_cases hport : p.value.port.isSome = true
  · simp only [hport, if_true, true_and, smExecute, executeMasterInfo]
    have hcongr : Accepts (logState L) (executedInfo 0 0 0 e.id p.value) ↔
        Accepts (logState L) { p.value with instanceId := e.id } := Iff.rfl
    rw [← hcongr]
    by_cases hacc : Accepts (logState L) (executedInfo 0 0 0 e.id p.value)
    · simp [setMaster_of_accepts hacc, hacc]
    · simp [setMaster_of_not_accepts hacc, hacc]
  · simp [hport, smExecute]

/-- The record after an accepted entry. -/
theorem logStep_of_accepted {L : List Instance} {e : Instance} {p : Proposal}
    (h : Accepted L e p) :
    logStep (logState L) e = bump (erase { p.value with instanceId := e.id }) := by
  obtain ⟨hp, hport, hacc⟩ := accepted_iff.mp h
  have hacc' : Accepts (logState L) (executedInfo 0 0 0 e.id p.value) := hacc
  simp only [logStep, executeInstance, hp, received, hport, if_true, smExecute, executeMasterInfo,
    setMaster_of_accepts hacc']
  rfl

/-- A rejected entry leaves the record as it is. -/
theorem logStep_of_not_accepted {L : List Instance} {e : Instance}
    (h : ∀ p, ¬ Accepted L e p) : logStep (logState L) e = logState L := by
  unfold logStep
  cases hc : e.chosen with
  | event => simp [executeInstance, hc]
  | master p =>
    have hno : ¬ (p.value.port.isSome = true ∧
        Accepts (logState L) (executedInfo 0 0 0 e.id p.value)) :=
      fun hacc => h p (accepted_iff.mpr ⟨hc, hacc⟩)
    by_cases hport : p.value.port.isSome = true
    · have hacc := fun ha => hno ⟨hport, ha⟩
      simp [executeInstance, hc, received, hport, smExecute, executeMasterInfo,
        setMaster_of_not_accepts hacc]
    · simp [executeInstance, hc, received, hport, smExecute]

theorem logStep_cases (L : List Instance) (e : Instance) :
    (∃ p, Accepted L e p) ∨ logStep (logState L) e = logState L := by
  by_cases h : ∃ p, Accepted L e p
  · exact .inl h
  · exact .inr (logStep_of_not_accepted (not_exists.mp h))

/-! ## Logs whose entries were built from earlier records -/

/-- The proposal was built from the record of a point of this log. -/
structure BuiltFrom (log : List Instance) (p : Proposal) : Prop where
  base : ∃ L, L <+: log ∧ erase p.base = logState L
  version : p.value.version = p.base.version
  admin : p.base.adminUserinfo <+: p.value.adminUserinfo
  replica : p.base.replicaUserinfo <+: p.value.replicaUserinfo
  svrId : p.value.port.isSome = true → 0 < p.value.svrId

theorem BuiltFrom.mono {log log' : List Instance} {p : Proposal} (h : BuiltFrom log p)
    (hle : log <+: log') : BuiltFrom log' p := by
  obtain ⟨L, hL, hbase⟩ := h.base
  exact { h with base := ⟨L, hL.trans hle, hbase⟩ }

/-- Logs with increasing ids in which every entry was built from a record before it. -/
inductive BuiltLog : List Instance → Prop
  | nil : BuiltLog []
  | concat {L : List Instance} {e : Instance} (hL : BuiltLog L) (hid : ∀ x ∈ L, x.id < e.id)
      (hmax : e.id + 1 < 2 ^ 64) (hbuilt : ∀ p, e.chosen = .master p → BuiltFrom L p) :
      BuiltLog (L ++ [e])

theorem BuiltLog.pairwise {L : List Instance} (h : BuiltLog L) :
    L.Pairwise fun x y => x.id < y.id := by
  induction h with
  | nil => exact .nil
  | concat _ hid _ _ ih =>
    refine List.pairwise_append.mpr ⟨ih, List.pairwise_singleton .., ?_⟩
    intro x hx y hy
    rw [List.mem_singleton.mp hy]
    exact hid x hx

/-- Every initial part of such a log is one. -/
theorem BuiltLog.of_prefix {L log : List Instance} (h : BuiltLog log) (hL : L <+: log) :
    BuiltLog L := by
  induction h with
  | nil =>
    rw [List.prefix_nil.mp hL]
    exact .nil
  | concat hlog hid hmax hbuilt ih =>
    rcases List.prefix_concat_iff.mp hL with rfl | hL'
    · exact .concat hlog hid hmax hbuilt
    · exact ih hL'

/-- What is known of the last entry. -/
theorem BuiltLog.last {L : List Instance} {e : Instance} (h : BuiltLog (L ++ [e])) :
    (∀ x ∈ L, x.id < e.id) ∧ e.id + 1 < 2 ^ 64 ∧ ∀ p, e.chosen = .master p → BuiltFrom L p := by
  generalize hlog : L ++ [e] = log at h
  cases h with
  | nil => simp at hlog
  | concat _ hid hmax hbuilt =>
    obtain ⟨rfl, he⟩ := List.append_inj' hlog rfl
    obtain rfl := List.singleton_inj.mp he
    exact ⟨hid, hmax, hbuilt⟩

/-- Without a master nothing has been stored. -/
theorem BuiltLog.eq_default {L : List Instance} (h : BuiltLog L) (hsvr : (logState L).svrId = 0) :
    logState L = {} := by
  induction h with
  | nil => rfl
  | @concat L e _ _ _ hbuilt ih =>
    rw [logState_concat] at hsvr ⊢
    rcases logStep_cases L e with ⟨p, hp⟩ | hsame
    · have hport := (accepted_iff.mp hp).2.1
      have hpos := (hbuilt p hp.1).svrId hport
      rw [logStep_of_accepted hp] at hsvr
      exact absurd hsvr (Nat.ne_of_gt hpos)
    · rw [hsame] at hsvr ⊢
      exact ih hsvr

/-- If records of different points differ in their version, an accepted entry was built from the
record it replaces. -/
private theorem accepted_base_of {L : List Instance} {e : Instance} {p : Proposal}
    (hL : BuiltLog L) (hbuilt : BuiltFrom L p) (hp : Accepted L e p)
    (hmono : ∀ L', L' <+: L →
      logState L' = logState L ∨ (logState L').version < (logState L).version) :
    erase p.base = logState L := by
  obtain ⟨-, -, hacc⟩ := accepted_iff.mp hp
  obtain ⟨L₀, hL₀, hbase⟩ := hbuilt.base
  rcases hmono L₀ hL₀ with heq | hlt
  · rw [hbase, heq]
  · rcases hacc with hsvr | ⟨-, hge⟩
    · rw [hL.eq_default hsvr] at hlt
      exact absurd hlt (Nat.not_lt_zero _)
    · have hver : p.value.version = (logState L₀).version := by
        rw [hbuilt.version, ← hbase, erase_version]
      rw [← hver] at hlt
      exact absurd hge (Nat.not_le.mpr hlt)

/-- Records of different points of the log differ in their version, and versions do not run ahead of
the instance ids. -/
theorem BuiltLog.version_spec {L : List Instance} (h : BuiltLog L) :
    (∀ L', L' <+: L →
      logState L' = logState L ∨ (logState L').version < (logState L).version) ∧
    ∀ id, (∀ x ∈ L, x.id < id) → (logState L).version ≤ id := by
  induction h with
  | nil =>
    refine ⟨fun L' hL' => .inl ?_, fun id _ => Nat.zero_le id⟩
    rw [List.prefix_nil.mp hL']
  | @concat L e hL hid hmax hbuilt ih =>
    obtain ⟨hmono, hbound⟩ := ih
    have hle := hbound e.id hid
    rcases logStep_cases L e with ⟨p, hp⟩ | hsame
    · -- An accepted record was built from the one it replaces: an older one has a smaller version.
      have hbase := accepted_base_of hL (hbuilt p hp.1) hp hmono
      have hcur : p.value.version = (logState L).version := by
        rw [(hbuilt p hp.1).version, ← hbase, erase_version]
      have hnew : (logState (L ++ [e])).version = (logState L).version + 1 := by
        rw [logState_concat, logStep_of_accepted hp, ← hcur]
        rw [← hcur] at hle
        exact Nat.mod_eq_of_lt (show p.value.version + 1 < 2 ^ 64 by omega)
      refine ⟨fun L' hL' => ?_, fun id hlt => ?_⟩
      · rcases List.prefix_concat_iff.mp hL' with rfl | hL'
        · exact .inl rfl
        · refine .inr ?_
          rcases hmono L' hL' with heq | hlt
          · rw [heq, hnew]
            exact Nat.lt_succ_self _
          · omega
      · have hlast := hlt e (by simp)
        omega
    · refine ⟨fun L' hL' => ?_, fun id hlt => ?_⟩
      · rcases List.prefix_concat_iff.mp hL' with rfl | hL'
        · exact .inl rfl
        · rw [logState_concat, hsame]
          exact hmono L' hL'
      · rw [logState_concat, hsame]
        exact hbound id fun x hx => hlt x (by simp [hx])

theorem BuiltLog.eq_or_version_lt {L L' : List Instance} (h : BuiltLog L) (hL' : L' <+: L) :
    logState L' = logState L ∨ (logState L').version < (logState L).version :=
  h.version_spec.1 L' hL'

/-- An accepted entry was built from the record it replaces. -/
theorem BuiltLog.accepted_base {L : List Instance} {e : Instance} {p : Proposal}
    (h : BuiltLog (L ++ [e])) (hp : Accepted L e p) : erase p.base = logState L :=
  have hL := h.of_prefix (List.prefix_append L [e])
  accepted_base_of hL (h.last.2.2 p hp.1) hp hL.version_spec.1

/-- An accepted entry carries the version of the record it replaces. -/
theorem BuiltLog.accepted_version {L : List Instance} {e : Instance} {p : Proposal}
    (h : BuiltLog (L ++ [e])) (hp : Accepted L e p) :
    p.value.version = (logState L).version := by
  rw [(h.last.2.2 p hp.1).version, ← h.accepted_base hp, erase_version]

/-- An accepted entry raises the version by one. -/
theorem BuiltLog.version_concat {L : List Instance} {e : Instance} {p : Proposal}
    (h : BuiltLog (L ++ [e])) (hp : Accepted L e p) :
    (logState (L ++ [e])).version = (logState L).version + 1 := by
  have hL := h.of_prefix (List.prefix_append L [e])
  have hle := hL.version_spec.2 e.id h.last.1
  have hmax := h.last.2.1
  rw [← h.accepted_version hp] at hle ⊢
  rw [logState_concat, logStep_of_accepted hp]
  exact Nat.mod_eq_of_lt (show p.value.version + 1 < 2 ^ 64 by omega)

/-- The account lists only grow along the log. -/
theorem BuiltLog.userinfo_mono {L L' : List Instance} (h : BuiltLog L) (hL' : L' <+: L) :
    (logState L').adminUserinfo <+: (logState L).adminUserinfo ∧
      (logState L').replicaUserinfo <+: (logState L).replicaUserinfo := by
  induction h with
  | nil =>
    rw [List.prefix_nil.mp hL']
    exact ⟨List.prefix_rfl, List.prefix_rfl⟩
  | @concat L e hL hid hmax hbuilt ih =>
    rcases List.prefix_concat_iff.mp hL' with rfl | hL'
    · exact ⟨List.prefix_rfl, List.prefix_rfl⟩
    obtain ⟨hadmin, hreplica⟩ := ih hL'
    rw [logState_concat]
    rcases logStep_cases L e with ⟨p, hp⟩ | hsame
    · have hbase := (BuiltLog.concat hL hid hmax hbuilt).accepted_base hp
      have hfrom := hbuilt p hp.1
      rw [logStep_of_accepted hp]
      rw [← hbase] at hadmin hreplica
      exact ⟨hadmin.trans hfrom.admin, hreplica.trans hfrom.replica⟩
    · rw [hsame]
      exact ⟨hadmin, hreplica⟩

/-- An entry of the log is not accepted again after it. -/
theorem BuiltLog.not_accepted_again {L : List Instance} (h : BuiltLog L) {x : Instance}
    (hx : x ∈ L) (p : Proposal) : ¬ Accepted L x p := by
  induction h with
  | nil => simp at hx
  | @concat L e _ hid _ hbuilt ih =>
    intro hp
    obtain ⟨hchosen, hport, hacc⟩ := accepted_iff.mp hp
    rw [logState_concat] at hacc
    by_cases hq : ∃ q, Accepted L e q
    · -- The stored instance id is that of `e`, which is the largest.
      obtain ⟨q, hq⟩ := hq
      have hpos := (hbuilt q hq.1).svrId (accepted_iff.mp hq).2.1
      rw [logStep_of_accepted hq] at hacc
      rcases hacc with hsvr | ⟨hlt, -⟩
      · exact absurd hsvr (Nat.ne_of_gt hpos)
      · have hlt' : e.id < x.id := hlt
        rcases List.mem_append.mp hx with hx | hx
        · exact absurd (hid x hx) (Nat.lt_asymm hlt')
        · rw [List.mem_singleton.mp hx] at hlt'
          exact Nat.lt_irrefl _ hlt'
    · rw [logStep_of_not_accepted (not_exists.mp hq)] at hacc
      have hagain : Accepted L x p := accepted_iff.mpr ⟨hchosen, hport, hacc⟩
      rcases List.mem_append.mp hx with hx | hx
      · exact ih hx hagain
      · exact hq ⟨p, List.mem_singleton.mp hx ▸ hagain⟩

/-! ## The cluster and its log -/

/-- The record `m` is that of a point of the log at or after the entry `k`. -/
def Holds (log : List Instance) (m : MasterInfo) (k : Nat) : Prop :=
  ∃ L, L <+: log ∧ k ≤ L.length ∧ erase m = logState L

theorem Holds.mono {log log' : List Instance} {m : MasterInfo} {k k' : Nat} (h : Holds log m k)
    (hle : log <+: log') (hk : k' ≤ k) : Holds log' m k' := by
  obtain ⟨L, hL, hlen, hm⟩ := h
  exact ⟨L, hL.trans hle, Nat.le_trans hk hlen, hm⟩

theorem prefix_concat_of_getElem? {L log : List Instance} {e : Instance} (hL : L <+: log)
    (hget : log[L.length]? = some e) : L ++ [e] <+: log := by
  obtain ⟨t, rfl⟩ := hL
  rw [List.getElem?_append_right (Nat.le_refl _), Nat.sub_self] at hget
  cases t with
  | nil => simp at hget
  | cons x t =>
    simp only [List.getElem?_cons_zero, Option.some.injEq] at hget
    subst hget
    exact ⟨t, by simp⟩

/-- Executing the next entry, for the first time or again, keeps a node at a point of the log. -/
theorem Holds.execute {log : List Instance} {m : MasterInfo} {k : Nat} {e : Instance}
    (hlog : BuiltLog log) (h : Holds log m k) (hget : log[k]? = some e) (now rand own : Nat) :
    Holds log (executeInstance now rand own e m).2 (k + 1) := by
  obtain ⟨L, hL, hlen, hm⟩ := h
  have hexec := erase_executeInstance now rand own e hm
  rcases Nat.lt_or_eq_of_le hlen with hlt | rfl
  · -- The node already knows this entry, so it is rejected.
    have hmem : e ∈ L := by
      obtain ⟨t, rfl⟩ := hL
      rw [List.getElem?_append_left hlt] at hget
      exact List.mem_of_getElem? hget
    have hsame := logStep_of_not_accepted ((hlog.of_prefix hL).not_accepted_again hmem)
    exact ⟨L, hL, hlt, hexec.trans hsame⟩
  · refine ⟨L ++ [e], prefix_concat_of_getElem? hL hget, by simp, ?_⟩
    rw [hexec, logState_concat]

theorem coveredBy_append {L L' : List Instance} {id : Nat} (h : ∀ x ∈ L', id < x.id) :
    coveredBy (L ++ L') id = coveredBy L id := by
  have hnil : L'.takeWhile (fun e => decide (e.id ≤ id)) = [] := by
    cases L' with
    | nil => rfl
    | cons y L' =>
      have hy := h y (by simp)
      exact List.takeWhile_cons_of_neg (by simpa using hy)
  unfold coveredBy
  rw [List.takeWhile_append, hnil, List.append_nil]
  split
  · rename_i hall
    exact hall.symm
  · rfl

/-- A checkpoint taken at an executed entry covers no more than the node has executed. -/
theorem BuiltLog.coveredBy_le {log : List Instance} (h : BuiltLog log) {k : Nat} {e : Instance}
    (he : e ∈ log.take k) : coveredBy log e.id ≤ k := by
  have hpair := h.pairwise
  rw [← List.take_append_drop k log] at hpair
  have hlater : ∀ x ∈ log.drop k, e.id < x.id := (List.pairwise_append.mp hpair).2.2 e he
  calc coveredBy log e.id = coveredBy (log.take k ++ log.drop k) e.id := by
        rw [List.take_append_drop]
    _ = coveredBy (log.take k) e.id := coveredBy_append hlater
    _ ≤ (log.take k).length := (List.takeWhile_prefix _).length_le
    _ ≤ k := List.length_take_le ..

theorem BuiltLog.eq_default_of_version {L : List Instance} (h : BuiltLog L)
    (hver : (logState L).version = 0) : logState L = {} := by
  rcases h.eq_or_version_lt List.nil_prefix with heq | hlt
  · exact heq.symm
  · omega

/-- Loading a header gives the record the header was written with. -/
theorem erase_loadFromCheckPoint {log : List Instance} (hlog : BuiltLog log) {m : MasterInfo}
    {k : Nat} (h : Holds log m k) (now lease rand : Nat) :
    erase (loadFromCheckPoint now lease rand {} m) = erase m := by
  unfold loadFromCheckPoint
  split
  · rfl
  · rename_i hver
    obtain ⟨L, hL, -, hm⟩ := h
    have hzero : (logState L).version = 0 := by
      rw [← hm, erase_version]
      omega
    rw [hm, (hlog.of_prefix hL).eq_default_of_version hzero, erase_default]

/-- The cluster agrees with its log. -/
structure LogInv (c : Cluster) : Prop where
  built : BuiltLog c.log
  nodes : ∀ n, Holds c.log (c.nodes n).master (c.nodes n).applied
  requests : ∀ r ∈ c.requests,
    0 < r.node ∧ Derived r.node r.base r.info ∧ Holds c.log r.base 0
  proposals : ∀ p ∈ c.proposals, BuiltFrom c.log p
  headers : ∀ h ∈ c.headers,
    (∃ x ∈ c.log, x.id = h.instanceId) ∧
      Holds c.log h.master (coveredBy c.log h.instanceId)

theorem logInv_init (cfg : Config) : LogInv (system cfg).init where
  built := .nil
  nodes _ := ⟨[], List.prefix_rfl, Nat.le_refl _, rfl⟩
  requests _ h := by simp [system] at h
  proposals _ h := by simp [system] at h
  headers _ h := by simp [system] at h

theorem freshId_iff {log : List Instance} {id : Nat} :
    freshId log id = true ↔ (∀ x ∈ log, x.id < id) ∧ id + 1 < 2 ^ 64 := by
  simp [freshId]

/-- Appending an entry that was built from the log keeps the cluster in agreement. -/
theorem LogInv.append {c : Cluster} (h : LogInv c) {e : Instance}
    (hfresh : freshId c.log e.id = true) (hbuilt : ∀ p, e.chosen = .master p → BuiltFrom c.log p) :
    LogInv { c with log := c.log ++ [e] } := by
  obtain ⟨hid, hmax⟩ := freshId_iff.mp hfresh
  have hle : c.log <+: c.log ++ [e] := List.prefix_append ..
  refine ⟨.concat h.built hid hmax hbuilt, fun n => (h.nodes n).mono hle (Nat.le_refl _),
    fun r hr => ?_, fun p hp => (h.proposals p hp).mono hle, fun hd hhd => ?_⟩
  · obtain ⟨hpos, hder, hbase⟩ := h.requests r hr
    exact ⟨hpos, hder, hbase.mono hle (Nat.le_refl _)⟩
  · obtain ⟨⟨x, hx, hxid⟩, hholds⟩ := h.headers hd hhd
    refine ⟨⟨x, List.mem_append_left _ hx, hxid⟩, ?_⟩
    have hcov : coveredBy (c.log ++ [e]) hd.instanceId = coveredBy c.log hd.instanceId := by
      refine coveredBy_append fun y hy => ?_
      rw [List.mem_singleton.mp hy, ← hxid]
      exact hid x hx
    simpa only [hcov] using hholds.mono hle (Nat.le_refl _)

/-- A message that is sent with its base unchanged was built from the log: a record without a master
has no port, so it is not received. -/
theorem builtFrom_notify {log : List Instance} (hlog : BuiltLog log) {m : MasterInfo} {k : Nat}
    (h : Holds log m k) : BuiltFrom log { value := m, base := m } := by
  obtain ⟨L, hL, -, hm⟩ := h
  refine ⟨⟨L, hL, hm⟩, rfl, List.prefix_rfl, List.prefix_rfl, fun hport => ?_⟩
  by_contra hzero
  have hsvr : (logState L).svrId = 0 := by
    rw [← hm, erase_svrId]
    exact Nat.eq_zero_of_not_pos hzero
  have hdef := hm.trans ((hlog.of_prefix hL).eq_default hsvr)
  have hnone : m.port = none := congrArg MasterInfo.port hdef
  simp [hnone] at hport

/-- Every step keeps the cluster in agreement with its log. -/
theorem logInv_step {cfg : Config} {c c' : Cluster} {a : Action} (h : LogInv c)
    (hstep : step cfg c a = some c') : LogInv c' := by
  cases trans_of_step hstep with
  | tick d => exact { h with }
  | checkIsMaster => exact h
  | request r _ hpos hbase _ hinfo =>
    refine { h with requests := fun r' hr' => ?_ }
    rcases List.mem_append.mp hr' with hr' | hr'
    · exact h.requests r' hr'
    · rw [List.mem_singleton.mp hr']
      refine ⟨hpos, hinfo, ?_⟩
      rw [hbase]
      exact (h.nodes r.node).mono List.prefix_rfl (Nat.zero_le _)
  | leaseCheck r hget _ =>
    refine { h with requests := fun r' hr' => ?_ }
    rcases List.mem_or_eq_of_mem_set hr' with hr' | rfl
    · exact h.requests r' hr'
    · exact h.requests r (List.mem_of_getElem? hget)
  | send r hget _ =>
    -- The record that the request was built from stays a point of the log.
    obtain ⟨hpos, hder, L, hL, -, hbase⟩ := h.requests r (List.mem_of_getElem? hget)
    refine { h with
      requests := fun r' hr' => h.requests r' (List.mem_of_mem_eraseIdx hr')
      proposals := fun p hp => ?_ }
    rcases List.mem_append.mp hp with hp | hp
    · exact h.proposals p hp
    · rw [List.mem_singleton.mp hp]
      refine ⟨⟨L, hL, hbase⟩, hder.version, hder.admin, hder.replica, fun _ => ?_⟩
      show 0 < r.info.svrId
      rw [hder.svrId]
      exact hpos
  | notify n =>
    refine { h with proposals := fun p hp => ?_ }
    rcases List.mem_append.mp hp with hp | hp
    · exact h.proposals p hp
    · rw [List.mem_singleton.mp hp]
      exact builtFrom_notify h.built (h.nodes n)
  | choose p hget hfresh =>
    refine h.append hfresh fun q hq => ?_
    cases hq
    exact h.proposals p (List.mem_of_getElem? hget)
  | chooseEvent hfresh => exact h.append hfresh fun q hq => by cases hq
  | @execute n rand e hget _ =>
    refine { h with nodes := fun n' => ?_ }
    rcases eq_or_ne n' n with rfl | hne
    · simp only [Function.update_self]
      exact (h.nodes n').execute h.built hget ..
    · simp only [Function.update_of_ne hne]
      exact h.nodes n'
  | @writeHeader n id hevent =>
    obtain ⟨e, he, rfl, -⟩ := hevent
    refine { h with headers := fun hd hhd => ?_ }
    rcases List.mem_append.mp hhd with hhd | hhd
    · exact h.headers hd hhd
    · rw [List.mem_singleton.mp hhd]
      exact ⟨⟨e, List.mem_of_mem_take he, rfl⟩,
        (h.nodes n).mono List.prefix_rfl (h.built.coveredBy_le he)⟩
  | @restart n i rand hd hget _ =>
    -- The requests of the node are gone; its record goes back to the point of its header.
    obtain ⟨-, hholds⟩ := h.headers hd (List.mem_of_getElem? hget)
    refine { h with
      nodes := fun n' => ?_
      requests := fun r hr => h.requests r (List.mem_filter.mp hr).1 }
    rcases eq_or_ne n' n with rfl | hne
    · simp only [Function.update_self]
      obtain ⟨L, hL, hlen, hm⟩ := hholds
      exact ⟨L, hL, hlen, (erase_loadFromCheckPoint h.built ⟨L, hL, hlen, hm⟩ ..).trans hm⟩
    · simp only [Function.update_of_ne hne]
      exact h.nodes n'

/-- The cluster agrees with its log in every reachable state. -/
theorem logInv_of_reachable {cfg : Config} {ok : Cluster → Action → Prop} {c : Cluster}
    (h : ReachableBy (system cfg) ok c) : LogInv c :=
  h.invariant (logInv_init cfg) fun _ _ _ hinv _ hstep => logInv_step hinv hstep

/-! ## No update is lost -/

theorem BuiltLog.version_mono {L L' : List Instance} (h : BuiltLog L') (hL : L <+: L') :
    (logState L).version ≤ (logState L').version := by
  rcases h.eq_or_version_lt hL with heq | hlt
  · exact Nat.le_of_eq (congrArg MasterInfo.version heq)
  · exact Nat.le_of_lt hlt

/-- An entry is accepted for each version at most once. -/
theorem BuiltLog.accepted_unique {log L L' : List Instance} {e e' : Instance} {p p' : Proposal}
    (h : BuiltLog log) (hL : L ++ [e] <+: log) (hL' : L' ++ [e'] <+: log) (hp : Accepted L e p)
    (hp' : Accepted L' e' p') (hver : p.value.version = p'.value.version) : L = L' := by
  -- Of two points of the log, the later one has the larger version if an entry between them counts.
  have key : ∀ {K K' : List Instance} {x x' : Instance} {q q' : Proposal},
      K ++ [x] <+: K' ++ [x'] → K' ++ [x'] <+: log → Accepted K x q → Accepted K' x' q' →
      q.value.version = q'.value.version → K = K' := by
    intro K K' x x' q q' hle hK' hq hq' hver
    have hlogK' := h.of_prefix hK'
    have hlogK := hlogK'.of_prefix hle
    rcases List.prefix_concat_iff.mp hle with heq | hlt
    · exact (List.append_inj' heq rfl).1
    · have hmono := (hlogK'.of_prefix (List.prefix_append K' [x'])).version_mono hlt
      rw [hlogK.version_concat hq, ← hlogK.accepted_version hq, ← hlogK'.accepted_version hq',
        hver] at hmono
      omega
  rcases List.prefix_or_prefix_of_prefix hL hL' with hle | hle
  · exact key hle hL' hp hp' hver
  · exact (key hle hL hp' hp hver.symm).symm

/-- What a node accepts was built from the record it holds. -/
theorem LogInv.accepted_at_node {c : Cluster} (h : LogInv c) {n : Nat} {e : Instance}
    {p : Proposal} (hget : c.log[(c.nodes n).applied]? = some e) (hp : e.chosen = .master p)
    {now rand : Nat} (hok : (executeInstance now rand n e (c.nodes n).master).1 = .ok) :
    ∃ L, L ++ [e] <+: c.log ∧ erase (c.nodes n).master = logState L ∧ Accepted L e p := by
  obtain ⟨L, hL, hlen, hm⟩ := h.nodes n
  have hacc : Accepted L e p := by
    refine ⟨hp, ?_⟩
    rw [← hok]
    exact (executeInstance_erase_congr 0 0 0 now rand n e (by rw [erase_logState, hm])).1
  rcases Nat.lt_or_eq_of_le hlen with hlt | heq
  · have hmem : e ∈ L := by
      obtain ⟨t, ht⟩ := hL
      rw [← ht, List.getElem?_append_left hlt] at hget
      exact List.mem_of_getElem? hget
    exact absurd hacc ((h.built.of_prefix hL).not_accepted_again hmem p)
  · rw [heq] at hget
    exact ⟨L, prefix_concat_of_getElem? hL hget, hm, hacc⟩

/-- No update of the master record is lost. In every reachable state: an entry that a node accepts
was built from the record it replaces, carries its version and raises it by one, and extends its
account lists; no two accepted entries of the log carry the same version; account lists only grow
along the log; and every node holds the record of a point of the log. -/
theorem masterInfo_no_lost_update {cfg : Config} {c : Cluster} (h : Reachable (system cfg) c) :
    (∀ (n now rand : Nat) (e : Instance) (p : Proposal) (m m' : MasterInfo),
      c.log[(c.nodes n).applied]? = some e → e.chosen = .master p → m = (c.nodes n).master →
      executeInstance now rand n e m = (.ok, m') →
        erase p.base = erase m ∧ p.value.version = m.version ∧ m'.version = m.version + 1 ∧
          m.adminUserinfo <+: m'.adminUserinfo ∧ m.replicaUserinfo <+: m'.replicaUserinfo) ∧
    (∀ (L L' : List Instance) (e e' : Instance) (p p' : Proposal),
      L ++ [e] <+: c.log → L' ++ [e'] <+: c.log → Accepted L e p → Accepted L' e' p' →
        p.value.version = p'.value.version → L = L') ∧
    (∀ L L' : List Instance, L <+: L' → L' <+: c.log →
      (logState L).adminUserinfo <+: (logState L').adminUserinfo ∧
        (logState L).replicaUserinfo <+: (logState L').replicaUserinfo) ∧
    ∀ n, ∃ L, L <+: c.log ∧ erase (c.nodes n).master = logState L := by
  have hinv := logInv_of_reachable h
  refine ⟨?_, ?_, ?_, ?_⟩
  · -- A node accepts what the log accepts at that point.
    rintro n now rand e p m m' hget hp rfl hexec
    obtain ⟨L, hL, hm, hacc⟩ := hinv.accepted_at_node hget hp (congrArg Prod.fst hexec)
    have hlog := hinv.built.of_prefix hL
    have hm' : erase m' = logState (L ++ [e]) := by
      have hexec' := erase_executeInstance now rand n e hm
      rw [hexec] at hexec'
      rw [logState_concat, ← hexec']
    have hgrow := hlog.userinfo_mono (List.prefix_append L [e])
    rw [← hm', ← hm] at hgrow
    refine ⟨(hlog.accepted_base hacc).trans hm.symm, ?_, ?_, hgrow⟩
    · rw [hlog.accepted_version hacc, ← hm, erase_version]
    · rw [← erase_version m', hm', hlog.version_concat hacc, ← hm, erase_version]
  · intro L L' e e' p p' hL hL' hp hp' hver
    exact hinv.built.accepted_unique hL hL' hp hp' hver
  · intro L L' hle hL'
    exact (hinv.built.of_prefix hL').userinfo_mono hle
  · intro n
    obtain ⟨L, hL, -, hm⟩ := hinv.nodes n
    exact ⟨L, hL, hm⟩

/-- Node 1 takes over, both nodes execute that, and node 1 adds an account. -/
def accountRun : List Action :=
  [.tick 1, .setMaster 1 none, .leaseCheck 0, .sendMasterInfo 0, .choose 0 1, .execute 1 0,
    .execute 2 9, .setMySqlAdminInfo 1 ⟨[114], []⟩, .leaseCheck 0, .sendMasterInfo 0, .choose 1 2]

/-- A takeover at node 1 and then a new account: node 2, which has executed the takeover, accepts
the account entry, and that entry was built from the record the takeover left. -/
theorem masterInfo_no_lost_update_account :
    ∃ c, run (system .twentySeconds) {} accountRun = some c ∧
      ∃ p, c.log[1]? = some ⟨2, .master p⟩ ∧
        (executeInstance 5 3 2 ⟨2, .master p⟩ (c.nodes 2).master).1 = .ok ∧
        erase p.base = erase (c.nodes 2).master := by
  refine ⟨_, rfl, _, rfl, by decide, ?_⟩
  have hreach := @reachable_of_run _ _ (system .twentySeconds) accountRun _ rfl
  have hnode := (masterInfo_no_lost_update hreach).1 2 5 3
  exact (hnode _ _ _ _ rfl rfl rfl (Prod.ext (by decide) rfl)).1

end PhxSql.Master
