import PhxSql.Master.MasterLog

/-!
# Lease exclusivity

The lease of a record ends at `update_time + lease`. The node a record names computes that time
itself, every other node computes a time that is not earlier, and a node takes over only when its
own copy has expired. A record that replaces another one therefore either renews the lease of the
same node or comes after the end of the replaced lease (`Succeeds`), and two nodes that both hold an
unexpired record naming themselves would contradict that.

One message does not fit: `MasterAgent::MasterNotify` sends the local copy with its absolute expiry
and without looking at whom it names. A node that was master a moment ago can so send a record that
names its successor, with the longer expiry it computed for it, and the successor then holds an
expiry later than the end of its lease. `leaseExclusive_fails` is such a run. In every run in which
`MasterNotify` is sent only by a node whose copy names itself, and no time passes the end of a
`uint32`, there is at most one master (`leaseExclusive`).
-/

set_option autoImplicit false

namespace PhxSql.Master

open PhxSql.Proto PhxSql.Lib.Transition

/-! ## The condition on the steps -/

/-- The end of the lease of a record, computed at the node that sent it. -/
def leaseEnd (m : MasterInfo) : Nat :=
  m.updateTime + m.lease

@[simp] theorem leaseEnd_erase (m : MasterInfo) : leaseEnd (erase m) = leaseEnd m := rfl
@[simp] theorem leaseEnd_bump (m : MasterInfo) : leaseEnd (bump m) = leaseEnd m := rfl

/-- The lease an instance carries. -/
def leaseOf (e : Instance) : Nat :=
  match e.chosen with
  | .master p => p.value.lease
  | .event => 0

/-- `MasterNotify` is sent only by a node whose copy names itself, no stored time wraps around, and
no process restarts. -/
def LeaseOk (cfg : Config) (c : Cluster) : Action → Prop
  | .masterNotify n => (c.nodes n).master.svrId = n
  | .sendMasterInfo i => ∀ r ∈ c.requests[i]?, c.now + cfg.leaseTime r.node < 2 ^ 32
  | .execute n rand => ∀ e ∈ c.log[(c.nodes n).applied]?, c.now + leaseOf e + rand < 2 ^ 32
  | .restart _ _ _ => False
  | _ => True

instance (cfg : Config) (c : Cluster) (a : Action) : Decidable (LeaseOk cfg c a) :=
  match a with
  | .masterNotify n => inferInstanceAs (Decidable ((c.nodes n).master.svrId = n))
  | .sendMasterInfo i =>
    inferInstanceAs (Decidable (∀ r ∈ c.requests[i]?, c.now + cfg.leaseTime r.node < 2 ^ 32))
  | .execute n rand =>
    inferInstanceAs
      (Decidable (∀ e ∈ c.log[(c.nodes n).applied]?, c.now + leaseOf e + rand < 2 ^ 32))
  | .restart _ _ _ => inferInstanceAs (Decidable False)
  | .tick _ => inferInstanceAs (Decidable True)
  | .setMaster _ _ => inferInstanceAs (Decidable True)
  | .setMySqlAdminInfo _ _ => inferInstanceAs (Decidable True)
  | .setMySqlReplicaInfo _ _ => inferInstanceAs (Decidable True)
  | .leaseCheck _ => inferInstanceAs (Decidable True)
  | .checkIsMaster _ => inferInstanceAs (Decidable True)
  | .choose _ _ => inferInstanceAs (Decidable True)
  | .chooseEvent _ => inferInstanceAs (Decidable True)
  | .writeHeader _ _ => inferInstanceAs (Decidable True)

/-! ## Records that succeed one another -/

/-- The record `s'` may follow `s`: there was no master, or the same node renews its lease, or the
lease of `s` is over. -/
def Succeeds (now : Nat) (s s' : MasterInfo) : Prop :=
  s.svrId = 0 ∨ (s'.svrId = s.svrId ∧ leaseEnd s ≤ leaseEnd s') ∨ leaseEnd s < now

theorem Succeeds.refl (now : Nat) (s : MasterInfo) : Succeeds now s s :=
  .inr (.inl ⟨rfl, Nat.le_refl _⟩)

theorem Succeeds.trans {now : Nat} {s s' s'' : MasterInfo} (h : Succeeds now s s')
    (h' : Succeeds now s' s'') : Succeeds now s s'' := by
  rcases h with hzero | ⟨hsvr, hle⟩ | hover
  · exact .inl hzero
  · rcases h' with hzero | ⟨hsvr', hle'⟩ | hover
    · exact .inl (hsvr ▸ hzero)
    · exact .inr (.inl ⟨hsvr'.trans hsvr, Nat.le_trans hle hle'⟩)
    · exact .inr (.inr (Nat.lt_of_le_of_lt hle hover))
  · exact .inr (.inr hover)

theorem Succeeds.mono {now now' : Nat} {s s' : MasterInfo} (h : Succeeds now s s')
    (hle : now ≤ now') : Succeeds now' s s' :=
  h.imp_right fun h => h.imp_right fun hover => Nat.lt_of_lt_of_le hover hle

/-- The log has a record of a later version, so nothing built from `base` is accepted any more. -/
def Stale (log : List Instance) (base : MasterInfo) : Prop :=
  ∃ L, L <+: log ∧ base.version < (logState L).version

theorem Stale.mono {log log' : List Instance} {base : MasterInfo} (h : Stale log base)
    (hle : log <+: log') : Stale log' base := by
  obtain ⟨L, hL, hlt⟩ := h
  exact ⟨L, hL.trans hle, hlt⟩

/-- The record of the whole log is not stale. -/
theorem BuiltLog.not_stale {log : List Instance} (h : BuiltLog log) {base : MasterInfo}
    (hbase : erase base = logState log) : ¬ Stale log base := by
  rintro ⟨L, hL, hlt⟩
  have hle := h.version_mono hL
  rw [← hbase, erase_version] at hle
  omega

/-- What a sent proposal satisfies from the time it is sent. -/
structure Lawful (cfg : Config) (now : Nat) (log : List Instance) (p : Proposal) : Prop where
  updated : p.value.updateTime ≤ now
  lease : p.value.lease = cfg.leaseTime p.value.svrId
  bounded : leaseEnd p.value < 2 ^ 32
  expire : p.value.expireTime = 0 ∨ p.value.expireTime = leaseEnd p.value
  base : Succeeds now p.base p.value ∨ Stale log p.base

theorem Lawful.mono {cfg : Config} {now now' : Nat} {log log' : List Instance} {p : Proposal}
    (h : Lawful cfg now log p) (hnow : now ≤ now') (hlog : log <+: log') :
    Lawful cfg now' log' p where
  updated := Nat.le_trans h.updated hnow
  lease := h.lease
  bounded := h.bounded
  expire := h.expire
  base := h.base.imp (fun hs => hs.mono hnow) fun hs => hs.mono hlog

/-- A request that has passed the lease check. -/
def CanPropose (now : Nat) (log : List Instance) (r : Request) : Prop :=
  r.base.svrId = 0 ∨ r.base.svrId = r.node ∨ leaseEnd r.base < now ∨ Stale log r.base

theorem CanPropose.mono {now now' : Nat} {log log' : List Instance} {r : Request}
    (h : CanPropose now log r) (hnow : now ≤ now') (hlog : log <+: log') :
    CanPropose now' log' r := by
  rcases h with hzero | hsame | hover | hstale
  · exact .inl hzero
  · exact .inr (.inl hsame)
  · exact .inr (.inr (.inl (Nat.lt_of_lt_of_le hover hnow)))
  · exact .inr (.inr (.inr (hstale.mono hlog)))

/-- The times of a stored record. -/
structure Timed (cfg : Config) (now : Nat) (s : MasterInfo) : Prop where
  updated : s.updateTime ≤ now
  lease : s.lease = cfg.leaseTime s.svrId
  bounded : leaseEnd s < 2 ^ 32

/-- The lease invariant. The nodes in `restarted` have loaded a checkpoint: what they know of
another node's lease may be wrong, and they make no requests. -/
structure LeaseInv (cfg : Config) (restarted : Nat → Prop) (c : Cluster) : Prop where
  log : LogInv c
  own : ∀ n, (c.nodes n).master.svrId = n →
    (c.nodes n).master.expireTime = leaseEnd (c.nodes n).master
  others : ∀ n, ¬ restarted n →
    leaseEnd (c.nodes n).master ≤ (c.nodes n).master.expireTime
  bases : ∀ r ∈ c.requests, leaseEnd r.base ≤ r.base.expireTime
  checked : ∀ r ∈ c.requests, r.checked = true → CanPropose c.now c.log r
  proposals : ∀ p ∈ c.proposals, p.value.port.isSome = true → Lawful cfg c.now c.log p
  entries : ∀ e ∈ c.log, ∀ p, e.chosen = .master p → p.value.port.isSome = true →
    Lawful cfg c.now c.log p
  timed : ∀ L, L <+: c.log → (logState L).svrId ≠ 0 → Timed cfg c.now (logState L)
  succeeds : ∀ L L', L <+: L' → L' <+: c.log → Succeeds c.now (logState L) (logState L')

theorem leaseInv_init (cfg : Config) : LeaseInv cfg (fun _ => False) (system cfg).init where
  log := logInv_init cfg
  own _ _ := rfl
  others _ _ := Nat.le_refl _
  bases _ h := by simp [system] at h
  checked _ h := by simp [system] at h
  proposals _ h := by simp [system] at h
  entries _ h := by simp [system] at h
  timed L hL hsvr := by
    rw [List.prefix_nil.mp hL] at hsvr
    exact absurd rfl hsvr
  succeeds L L' hle hL' := by
    obtain rfl := List.prefix_nil.mp hL'
    obtain rfl := List.prefix_nil.mp hle
    exact Succeeds.refl _ _

/-! ## What the steps do to leases -/

/-- An executed instance leaves the record or replaces it by the record it carries. -/
theorem executeInstance_cases (now rand own : Nat) (e : Instance) (m : MasterInfo) :
    (executeInstance now rand own e m).2 = m ∨
      ∃ p, e.chosen = .master p ∧ p.value.port.isSome = true ∧
        (executeInstance now rand own e m).2 = bump (executedInfo now rand own e.id p.value) := by
  cases hc : e.chosen with
  | event => exact .inl (by simp [executeInstance, hc])
  | master p =>
    by_cases hport : p.value.port.isSome = true
    · by_cases hacc : Accepts m (executedInfo now rand own e.id p.value)
      · refine .inr ⟨p, rfl, hport, ?_⟩
        simp [executeInstance, hc, received, hport, smExecute, executeMasterInfo,
          setMaster_of_accepts hacc]
      · refine .inl ?_
        simp [executeInstance, hc, received, hport, smExecute, executeMasterInfo,
          setMaster_of_not_accepts hacc]
    · exact .inl (by simp [executeInstance, hc, received, hport, smExecute])

/-- The expiry of an executed record: the end of the lease at the node it names, and not earlier
anywhere else. -/
theorem executedInfo_expireTime (own id : Nat) {cfg : Config} {now rand : Nat}
    {log : List Instance} {p : Proposal} (h : Lawful cfg now log p)
    (hwrap : now + p.value.lease + rand < 2 ^ 32) :
    (p.value.svrId = own →
      (executedInfo now rand own id p.value).expireTime = leaseEnd p.value) ∧
    leaseEnd p.value ≤ (executedInfo now rand own id p.value).expireTime := by
  have hupd := h.updated
  have hend : (p.value.updateTime + p.value.lease) % 2 ^ 32 = leaseEnd p.value :=
    Nat.mod_eq_of_lt h.bounded
  have hlocal : (now + p.value.lease + rand) % 2 ^ 32 = now + p.value.lease + rand :=
    Nat.mod_eq_of_lt hwrap
  have hle : leaseEnd p.value ≤ now + p.value.lease + rand := by
    unfold leaseEnd
    omega
  by_cases hzero : p.value.expireTime = 0
  · by_cases hown : p.value.svrId = own
    · have hexp : (executedInfo now rand own id p.value).expireTime = leaseEnd p.value := by
        simp only [executedInfo, hzero, hown, if_true, hend]
      exact ⟨fun _ => hexp, Nat.le_of_eq hexp.symm⟩
    · have hexp : (executedInfo now rand own id p.value).expireTime = now + p.value.lease + rand := by
        simp only [executedInfo, hzero, hown, if_true, if_false, hlocal]
      rw [hexp]
      exact ⟨fun h => absurd h hown, hle⟩
  · -- A notified record keeps its absolute expiry, which is the end of its lease.
    have hexp : p.value.expireTime = leaseEnd p.value := h.expire.resolve_left hzero
    simp only [executedInfo, hzero, if_false]
    exact ⟨fun _ => hexp, Nat.le_of_eq hexp.symm⟩

/-- The lease check passes only on a snapshot that is expired, the node's own, or stale. -/
theorem LeaseInv.canPropose {cfg : Config} {restarted : Nat → Prop} {c : Cluster}
    (h : LeaseInv cfg restarted c) {r : Request} (hr : r ∈ c.requests)
    (hcheck : leaseCheck c.now r.node (c.nodes r.node).master r.info = true) :
    CanPropose c.now c.log r := by
  obtain ⟨hpos, hder, Lb, hLb, -, hbase⟩ := h.log.requests r hr
  rw [leaseCheck, Bool.or_eq_true] at hcheck
  rcases hcheck with htimeout | hmaster
  · have hexp : r.info.expireTime < c.now := by simpa [isTimeOut] using htimeout
    rw [hder.expireTime] at hexp
    exact .inr (.inr (.inl (Nat.lt_of_le_of_lt (h.bases r hr) hexp)))
  · -- The node is master now; its record and the snapshot are two points of the log.
    obtain ⟨-, hsvr, hnow⟩ := isMaster_iff.mp hmaster
    obtain ⟨Lm, hLm, -, hm⟩ := h.log.nodes r.node
    have hbsvr : (logState Lb).svrId = r.base.svrId := by rw [← hbase, erase_svrId]
    have hmsvr : (logState Lm).svrId = r.node := by rw [← hm, erase_svrId, hsvr]
    rcases List.prefix_or_prefix_of_prefix hLb hLm with hle | hle
    · rcases (h.log.built.of_prefix hLm).eq_or_version_lt hle with heq | hlt
      · rw [heq, hmsvr] at hbsvr
        exact .inr (.inl hbsvr.symm)
      · refine .inr (.inr (.inr ⟨Lm, hLm, ?_⟩))
        rwa [← hbase, erase_version] at hlt
    · have hown := h.own r.node hsvr
      have hend : leaseEnd (logState Lm) = (c.nodes r.node).master.expireTime := by
        rw [← hm, leaseEnd_erase, hown]
      rcases h.succeeds Lm Lb hle hLb with hzero | ⟨hsame, -⟩ | hover
      · omega
      · exact .inr (.inl (by rw [← hbsvr, hsame, hmsvr]))
      · omega

/-- A request that passed the check is sent as a lawful proposal. -/
theorem LeaseInv.lawful_send {cfg : Config} {restarted : Nat → Prop} {c : Cluster}
    (h : LeaseInv cfg restarted c) {r : Request} (hr : r ∈ c.requests)
    (hchecked : r.checked = true) (hwrap : c.now + cfg.leaseTime r.node < 2 ^ 32) :
    Lawful cfg c.now c.log
      { value := stamp c.now (cfg.leaseTime r.node) r.info, base := r.base } := by
  obtain ⟨hpos, hder, Lb, hLb, -, hbase⟩ := h.log.requests r hr
  have hmod : c.now % 2 ^ 32 = c.now := Nat.mod_eq_of_lt (by omega)
  have hend : leaseEnd (stamp c.now (cfg.leaseTime r.node) r.info) =
      c.now + cfg.leaseTime r.node := by
    simp only [leaseEnd, stamp, hmod]
  refine ⟨Nat.mod_le _ _, ?_, by rw [hend]; exact hwrap, .inl rfl, ?_⟩
  · show cfg.leaseTime r.node = cfg.leaseTime r.info.svrId
    rw [hder.svrId]
  · rcases h.checked r hr hchecked with hzero | hsame | hover | hstale
    · exact .inl (.inl hzero)
    · -- The node renews its own lease: the old one was stamped no later than now.
      have hbsvr : (logState Lb).svrId = r.node := by rw [← hbase, erase_svrId, hsame]
      have htimed := h.timed Lb hLb (by omega)
      have hupd := htimed.updated
      have hlease := htimed.lease
      rw [hbsvr] at hlease
      refine .inl (.inr (.inl ⟨hder.svrId.trans hsame.symm, ?_⟩))
      rw [hend, ← leaseEnd_erase, hbase, leaseEnd, hlease]
      omega
    · exact .inl (.inr (.inr hover))
    · exact .inr hstale

/-- A node whose copy names itself sends a lawful notification. -/
theorem LeaseInv.lawful_notify {cfg : Config} {restarted : Nat → Prop} {c : Cluster}
    (h : LeaseInv cfg restarted c) {n : Nat} (hsvr : (c.nodes n).master.svrId = n)
    (hport : (c.nodes n).master.port.isSome = true) :
    Lawful cfg c.now c.log { value := (c.nodes n).master, base := (c.nodes n).master } := by
  obtain ⟨L, hL, -, hm⟩ := h.log.nodes n
  have hpos := (builtFrom_notify h.log.built (h.log.nodes n)).svrId hport
  have htimed := h.timed L hL (by
    rw [← hm, erase_svrId]
    exact Nat.ne_of_gt hpos)
  rw [← hm] at htimed
  exact ⟨htimed.updated, htimed.lease, htimed.bounded, .inr (h.own n hsvr),
    .inl (Succeeds.refl _ _)⟩

/-- Appending a lawful entry keeps the lease invariant. -/
theorem LeaseInv.append {cfg : Config} {restarted : Nat → Prop} {c : Cluster}
    (h : LeaseInv cfg restarted c) {e : Instance} (hlog : LogInv { c with log := c.log ++ [e] })
    (hlawful : ∀ p, e.chosen = .master p → p.value.port.isSome = true →
      Lawful cfg c.now c.log p) :
    LeaseInv cfg restarted { c with log := c.log ++ [e] } := by
  have hle : c.log <+: c.log ++ [e] := List.prefix_append ..
  have hnow : c.now ≤ c.now := Nat.le_refl _
  -- What the new entry does to the record of the whole log.
  have hnew : ((logState (c.log ++ [e])).svrId ≠ 0 → Timed cfg c.now (logState (c.log ++ [e]))) ∧
      Succeeds c.now (logState c.log) (logState (c.log ++ [e])) := by
    rw [logState_concat]
    rcases logStep_cases c.log e with ⟨p, hp⟩ | hsame
    · have hl := hlawful p hp.1 (accepted_iff.mp hp).2.1
      have hbase := hlog.built.accepted_base hp
      rw [logStep_of_accepted hp]
      refine ⟨fun _ => ⟨hl.updated, hl.lease, hl.bounded⟩, ?_⟩
      rcases hl.base with hs | hstale
      · rw [← hbase]
        exact hs
      · exact absurd hstale (h.log.built.not_stale hbase)
    · rw [hsame]
      exact ⟨h.timed c.log List.prefix_rfl, Succeeds.refl _ _⟩
  refine ⟨hlog, h.own, h.others, h.bases, fun r hr hc => (h.checked r hr hc).mono hnow hle,
    fun p hp hport => (h.proposals p hp hport).mono hnow hle, fun e' he' p hp hport => ?_,
    fun L hL hsvr => ?_, fun L L' hLL' hL' => ?_⟩
  · rcases List.mem_append.mp he' with he' | he'
    · exact (h.entries e' he' p hp hport).mono hnow hle
    · rw [List.mem_singleton.mp he'] at hp
      exact (hlawful p hp hport).mono hnow hle
  · rcases List.prefix_concat_iff.mp hL with rfl | hL
    · exact hnew.1 hsvr
    · exact h.timed L hL hsvr
  · rcases List.prefix_concat_iff.mp hL' with rfl | hL'
    · rcases List.prefix_concat_iff.mp hLL' with rfl | hL
      · exact Succeeds.refl _ _
      · exact (h.succeeds L c.log hL List.prefix_rfl).trans hnew.2
    · exact h.succeeds L L' hLL' hL'

theorem LeaseInv.tick {cfg : Config} {restarted : Nat → Prop} {c : Cluster}
    (h : LeaseInv cfg restarted c) {d : Nat} (hlog : LogInv { c with now := c.now + d }) :
    LeaseInv cfg restarted { c with now := c.now + d } := by
  have hnow : c.now ≤ c.now + d := Nat.le_add_right ..
  refine ⟨hlog, h.own, h.others, h.bases,
    fun r hr hc => (h.checked r hr hc).mono hnow List.prefix_rfl,
    fun p hp hport => (h.proposals p hp hport).mono hnow List.prefix_rfl,
    fun e he p hp hport => (h.entries e he p hp hport).mono hnow List.prefix_rfl,
    fun L hL hsvr => ?_, fun L L' hle hL' => (h.succeeds L L' hle hL').mono hnow⟩
  have htimed := h.timed L hL hsvr
  exact { htimed with updated := Nat.le_trans htimed.updated hnow }

/-- Executing an entry keeps the lease invariant. -/
theorem LeaseInv.execute {cfg : Config} {restarted : Nat → Prop} {c : Cluster}
    (h : LeaseInv cfg restarted c) {n rand : Nat} {e : Instance}
    (hlog : LogInv { c with nodes := Function.update c.nodes n (executeNode c n rand e) })
    (hmem : e ∈ c.log) (hwrap : c.now + leaseOf e + rand < 2 ^ 32) :
    LeaseInv cfg restarted
      { c with nodes := Function.update c.nodes n (executeNode c n rand e) } := by
  have hnode : ((executeNode c n rand e).master.svrId = n →
        (executeNode c n rand e).master.expireTime = leaseEnd (executeNode c n rand e).master) ∧
      (¬ restarted n →
        leaseEnd (executeNode c n rand e).master ≤ (executeNode c n rand e).master.expireTime) := by
    unfold executeNode
    rcases executeInstance_cases c.now rand n e (c.nodes n).master with hsame | ⟨p, hp, hport, hnew⟩
    · rw [hsame]
      exact ⟨h.own n, h.others n⟩
    · rw [leaseOf, hp] at hwrap
      have hexp := executedInfo_expireTime n e.id (h.entries e hmem p hp hport) hwrap
      rw [hnew]
      exact ⟨hexp.1, fun _ => hexp.2⟩
  refine { h with log := hlog, own := fun n' => ?_, others := fun n' => ?_ }
  · rcases eq_or_ne n' n with rfl | hne
    · simpa only [Function.update_self] using hnode.1
    · simpa only [Function.update_of_ne hne] using h.own n'
  · rcases eq_or_ne n' n with rfl | hne
    · simpa only [Function.update_self] using hnode.2
    · simpa only [Function.update_of_ne hne] using h.others n'

/-- Every permitted step keeps the lease invariant. -/
theorem leaseInv_step {cfg : Config} {restarted : Nat → Prop} {c c' : Cluster} {a : Action}
    (h : LeaseInv cfg restarted c) (hok : LeaseOk cfg c a)
    (hreq : ∀ n, a.requester = some n → ¬ restarted n) (hstep : step cfg c a = some c') :
    LeaseInv cfg restarted c' := by
  have hlog := logInv_step h.log hstep
  cases trans_of_step hstep with
  | tick d => exact h.tick hlog
  | checkIsMaster => exact h
  | request r ha hpos hbase hchecked _ =>
    refine { h with log := hlog, bases := fun r' hr' => ?_, checked := fun r' hr' hc => ?_ }
    · rcases List.mem_append.mp hr' with hr' | hr'
      · exact h.bases r' hr'
      · rw [List.mem_singleton.mp hr', hbase]
        exact h.others r.node (hreq r.node ha)
    · rcases List.mem_append.mp hr' with hr' | hr'
      · exact h.checked r' hr' hc
      · rw [List.mem_singleton.mp hr', hchecked] at hc
        cases hc
  | leaseCheck r hget hcheck =>
    have hr := List.mem_of_getElem? hget
    refine { h with log := hlog, bases := fun r' hr' => ?_, checked := fun r' hr' hc => ?_ }
    · rcases List.mem_or_eq_of_mem_set hr' with hr' | rfl
      · exact h.bases r' hr'
      · exact h.bases r hr
    · rcases List.mem_or_eq_of_mem_set hr' with hr' | rfl
      · exact h.checked r' hr' hc
      · -- What the check on the local record says holds of the log as well.
        exact (h.canPropose hr hcheck : CanPropose c.now c.log r)
  | send r hget hchecked =>
    have hr := List.mem_of_getElem? hget
    refine { h with
      log := hlog
      bases := fun r' hr' => h.bases r' (List.mem_of_mem_eraseIdx hr')
      checked := fun r' hr' => h.checked r' (List.mem_of_mem_eraseIdx hr')
      proposals := fun p hp hport => ?_ }
    rcases List.mem_append.mp hp with hp | hp
    · exact h.proposals p hp hport
    · rw [List.mem_singleton.mp hp]
      exact h.lawful_send hr hchecked (hok r hget)
  | notify n =>
    refine { h with log := hlog, proposals := fun p hp hport => ?_ }
    rcases List.mem_append.mp hp with hp | hp
    · exact h.proposals p hp hport
    · rw [List.mem_singleton.mp hp] at hport ⊢
      exact h.lawful_notify hok hport
  | choose p hget _ =>
    refine h.append hlog fun q hq => ?_
    cases hq
    exact h.proposals p (List.mem_of_getElem? hget)
  | chooseEvent _ => exact h.append hlog fun q hq => by cases hq
  | execute e hget _ => exact h.execute hlog (List.mem_of_getElem? hget) (hok e hget)
  | writeHeader _ => exact { h with log := hlog }
  | restart _ _ _ => exact hok.elim

/-! ## At most one master -/

/-- Under the lease invariant two masters are the same node. -/
theorem LeaseInv.exclusive {cfg : Config} {restarted : Nat → Prop} {c : Cluster}
    (h : LeaseInv cfg restarted c) {n m : Nat} (hn : c.isMasterAt n = true)
    (hm : c.isMasterAt m = true) : n = m := by
  -- Of the two records one is at a later point of the log; that one succeeds the other.
  have key : ∀ {n m : Nat} {L L' : List Instance}, c.isMasterAt n = true → c.isMasterAt m = true →
      L <+: L' → L' <+: c.log → erase (c.nodes n).master = logState L →
      erase (c.nodes m).master = logState L' → n = m := by
    intro n m L L' hn hm hle hL' hLn hLm
    obtain ⟨hpos, hsvr, hnow⟩ := isMaster_iff.mp hn
    obtain ⟨-, hsvr', -⟩ := isMaster_iff.mp hm
    have hend := h.own n hsvr
    have hsucc := h.succeeds L L' hle hL'
    rw [← hLn, ← hLm] at hsucc
    rcases hsucc with hzero | ⟨hsame, -⟩ | hover
    · rw [erase_svrId] at hzero
      omega
    · rw [erase_svrId, erase_svrId, hsvr, hsvr'] at hsame
      exact hsame.symm
    · rw [leaseEnd_erase, ← hend] at hover
      omega
  obtain ⟨L, hL, -, hLn⟩ := h.log.nodes n
  obtain ⟨L', hL', -, hLm⟩ := h.log.nodes m
  rcases List.prefix_or_prefix_of_prefix hL hL' with hle | hle
  · exact key hn hm hle hL' hLn hLm
  · exact (key hm hn hle hL hLm hLn).symm

theorem leaseInv_of_reachable {cfg : Config} {c : Cluster}
    (h : ReachableBy (system cfg) (LeaseOk cfg) c) : LeaseInv cfg (fun _ => False) c :=
  h.invariant (leaseInv_init cfg) fun _ _ _ hinv hok hstep =>
    leaseInv_step hinv hok (fun _ _ hf => hf) hstep

/-- In every state reached by permitted steps at most one node is master. -/
theorem leaseExclusive {cfg : Config} {c : Cluster}
    (h : ReachableBy (system cfg) (LeaseOk cfg) c) {n m : Nat} (hn : c.isMasterAt n = true)
    (hm : c.isMasterAt m = true) : n = m :=
  (leaseInv_of_reachable h).exclusive hn hm

/-- Node 1 is master, node 2 takes over after node 1's lease and notifies. -/
def takeoverRun : List Action :=
  [.tick 100, .setMaster 1 none, .leaseCheck 0, .sendMasterInfo 0, .choose 0 1, .execute 1 0,
    .execute 2 0, .tick 21, .setMaster 2 none, .leaseCheck 0, .sendMasterInfo 0, .choose 1 2,
    .execute 2 0, .execute 1 4, .masterNotify 2, .choose 2 3, .execute 1 0, .execute 2 0]

/-- After that run node 2 is master, and the only one. -/
theorem leaseExclusive_takeover :
    ∃ c, checkedRun (system .twentySeconds) (LeaseOk .twentySeconds) {}
        takeoverRun = some c ∧ c.isMasterAt 2 = true ∧ ∀ n, c.isMasterAt n = true → n = 2 := by
  refine ⟨_, rfl, by decide, fun n hn => ?_⟩
  have hreach : ReachableBy (system .twentySeconds)
      (LeaseOk .twentySeconds) _ := ReachableBy.checkedRun takeoverRun .init rfl
  exact leaseExclusive hreach hn (by decide)

/-- Node 1 is master; while it waits between the check of `CheckIsMaster` and `MasterNotify`, node 2
takes over and node 1 executes that late, with the largest extension. Its notification carries node
2's record with node 1's expiry, and node 2 stores it. Node 2's next heartbeat is chosen but node 2
does not execute it yet; node 3 executes it and takes over when the lease of the heartbeat is over.
-/
def notifyRun : List Action :=
  [.tick 100, .setMaster 1 none, .leaseCheck 0, .sendMasterInfo 0, .choose 0 1, .execute 1 0,
    .execute 2 0, .execute 3 0, .tick 20, .checkIsMaster 1, .tick 1,
    .setMaster 2 none, .leaseCheck 0, .sendMasterInfo 0, .choose 1 2, .execute 2 0, .execute 3 0,
    .tick 15, .execute 1 9, .masterNotify 1, .choose 2 3, .execute 2 0, .execute 3 0,
    .tick 1, .setMaster 2 none, .leaseCheck 0, .sendMasterInfo 0, .choose 3 4, .execute 3 0,
    .tick 21, .setMaster 3 none, .leaseCheck 0, .sendMasterInfo 0, .choose 4 5, .execute 3 0]

/-- Without the condition two nodes can be master at the same time. -/
theorem leaseExclusive_fails :
    ∃ c, Reachable (system .twentySeconds) c ∧
      c.isMasterAt 2 = true ∧ c.isMasterAt 3 = true := by
  refine ⟨_, reachable_of_run (show run _ _ notifyRun = some _ from rfl), ?_, ?_⟩
  · decide
  · decide

end PhxSql.Master
