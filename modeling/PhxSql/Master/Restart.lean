import PhxSql.Master.Lease

/-!
# Restarting from a checkpoint

A restarted node loads the master record of a checkpoint header and gives it a fresh expiry,
computed from the time of the restart, then executes the instances after the checkpoint again. If
the header names another node, the fresh expiry only makes the restarted node wait longer, and every
record it stores while it executes again is one the other nodes have stored before it. If the header
names the node itself, the fresh expiry is a lease nobody granted: the node is master as soon as it
has loaded the header, whatever has happened since the header was written.

`restart_exclusive_iff` states both directions for one restart, with any steps of the other nodes
while the restarted node executes the log again.
-/

set_option autoImplicit false

namespace PhxSql.Master

open PhxSql.Proto PhxSql.Lib.Transition

/-- The steps after a restart of node `n`: those of the lease protocol, where `n` executes the log
and makes no requests. -/
def RestartOk (cfg : Config) (n : Nat) (c : Cluster) (a : Action) : Prop :=
  LeaseOk cfg c a ∧ a.requester ≠ some n

instance (cfg : Config) (n : Nat) (c : Cluster) (a : Action) : Decidable (RestartOk cfg n c a) :=
  inferInstanceAs (Decidable (_ ∧ _))

/-- The states reached from `c` while node `n` executes the log again. -/
abbrev ReplayedFrom (cfg : Config) (n : Nat) (c : Cluster) : Cluster → Prop :=
  ReachableBy ⟨c, step cfg⟩ (RestartOk cfg n)

/-- A header names a master or keeps the empty record. -/
theorem LogInv.header_svrId_pos {c : Cluster} (h : LogInv c) {hd : Header} (hhd : hd ∈ c.headers)
    (hver : hd.master.version ≠ 0) : 0 < hd.master.svrId := by
  obtain ⟨-, L, hL, -, hm⟩ := h.headers hd hhd
  apply Nat.pos_of_ne_zero
  intro hzero
  have hdef := (h.built.of_prefix hL).eq_default (by rw [← hm, erase_svrId, hzero])
  apply hver
  rw [← erase_version, hm, hdef]

/-- Loading a header that does not name the node keeps the lease invariant. -/
theorem LeaseInv.restart {cfg : Config} {c c' : Cluster}
    (h : LeaseInv cfg (fun _ => False) c) {n i rand : Nat} {hd : Header}
    (hget : c.headers[i]? = some hd) (hstep : step cfg c (.restart n i rand) = some c')
    (hhd : hd.master.version = 0 ∨ hd.master.svrId ≠ n) : LeaseInv cfg (fun k => k = n) c' := by
  have hlog := logInv_step h.log hstep
  cases trans_of_step hstep with
  | restart hd' hget' _ =>
    rw [hget, Option.some.injEq] at hget'
    subst hget'
    refine { h with
      log := hlog
      own := fun k hk => ?_
      others := fun k hk => ?_
      bases := fun r hr => h.bases r (List.mem_filter.mp hr).1
      checked := fun r hr => h.checked r (List.mem_filter.mp hr).1 }
    · rcases eq_or_ne k n with rfl | hne
      · -- The loaded record names the node only if it is the empty one.
        simp only [Function.update_self, restartNode, loadFromCheckPoint] at hk ⊢
        split at hk
        · rename_i hver
          exact absurd hk (hhd.resolve_left (Nat.ne_of_gt hver))
        · rename_i hver
          rw [if_neg hver]
          rfl
      · simp only [Function.update_of_ne hne] at hk ⊢
        exact h.own k hk
    · simp only [Function.update_of_ne hk]
      exact h.others k id
  | request r ha => cases ha

/-- A header that names the node makes it master as soon as it is loaded. -/
theorem isMasterAt_restart {cfg : Config} {c c' : Cluster} (h : LogInv c) {n i rand : Nat}
    {hd : Header} (hget : c.headers[i]? = some hd)
    (hstep : step cfg c (.restart n i rand) = some c')
    (hwrap : c.now + cfg.leaseTime n + rand < 2 ^ 32) (hver : hd.master.version ≠ 0)
    (hsvr : hd.master.svrId = n) : c'.isMasterAt n = true := by
  have hpos := h.header_svrId_pos (List.mem_of_getElem? hget) hver
  cases trans_of_step hstep with
  | restart hd' hget' _ =>
    rw [hget, Option.some.injEq] at hget'
    subst hget'
    apply isMaster_iff.mpr
    simp only [Function.update_self, restartNode, loadFromCheckPoint,
      if_pos (Nat.pos_of_ne_zero hver), Nat.mod_eq_of_lt hwrap]
    exact ⟨hpos, hsvr, by omega⟩
  | request r ha => cases ha

/-- A restart changes nothing at the other nodes. -/
theorem isMasterAt_restart_of_ne {cfg : Config} {c c' : Cluster} {n m i rand : Nat}
    (hstep : step cfg c (.restart n i rand) = some c') (hne : m ≠ n) :
    c'.isMasterAt m = c.isMasterAt m := by
  cases trans_of_step hstep with
  | restart hd hget _ => simp only [Cluster.isMasterAt, Function.update_of_ne hne]
  | request r ha => cases ha

/-- A node restarts from a header it wrote while another node is master. No state it goes through
while it executes the log again has it as a second master, if and only if the header does not name
the node itself. -/
theorem restart_exclusive_iff {cfg : Config} {c c₁ : Cluster}
    (h : ReachableBy (system cfg) (LeaseOk cfg) c) {n m i rand : Nat} {hd : Header}
    (hget : c.headers[i]? = some hd) (hstep : step cfg c (.restart n i rand) = some c₁)
    (hwrap : c.now + cfg.leaseTime n + rand < 2 ^ 32) (hne : m ≠ n)
    (hm : c.isMasterAt m = true) :
    (∀ c₂, ReplayedFrom cfg n c₁ c₂ → ∀ k, k ≠ n → c₂.isMasterAt k = true →
      c₂.isMasterAt n = false) ↔ (hd.master.version = 0 ∨ hd.master.svrId ≠ n) := by
  have hinv := leaseInv_of_reachable h
  constructor
  · -- The state right after the restart has two masters.
    intro hall
    by_contra hhd
    rw [not_or, not_not] at hhd
    have hn := isMasterAt_restart hinv.log hget hstep hwrap hhd.1 hhd.2
    have hm₁ := (isMasterAt_restart_of_ne hstep hne).trans hm
    have hfalse := hall c₁ .init m hne hm₁
    rw [hn] at hfalse
    cases hfalse
  · -- The lease invariant with the restarted node exempt holds after the restart and is kept.
    intro hhd c₂ hreach k hk hmaster
    have hinv₂ : LeaseInv cfg (fun k => k = n) c₂ := by
      apply hreach.invariant (hinv.restart hget hstep hhd)
      intro s a s' hs hok hst
      apply leaseInv_step hs hok.1 _ hst
      rintro n' ha rfl
      exact hok.2 ha
    by_contra hn
    rw [Bool.not_eq_false] at hn
    exact hk (hinv₂.exclusive hmaster hn)

/-- Node 1 takes over; node 2 executes that and an event, and writes a header. -/
def followerHeaderRun : List Action :=
  [.tick 100, .setMaster 1 none, .leaseCheck 0, .sendMasterInfo 0, .choose 0 1, .execute 1 0,
    .chooseEvent 2, .execute 2 0, .execute 2 0, .writeHeader 2 2]

/-- Node 2 restarts from that header, which names node 1, and never becomes a second master. -/
theorem restart_exclusive_follower :
    ∃ c c₁, checkedRun (system .twentySeconds) (LeaseOk .twentySeconds)
        {} followerHeaderRun = some c ∧
      step Config.twentySeconds c (.restart 2 0 0) = some c₁ ∧ c.isMasterAt 1 = true ∧
      ∀ c₂, ReplayedFrom .twentySeconds 2 c₁ c₂ → ∀ k, k ≠ 2 →
        c₂.isMasterAt k = true → c₂.isMasterAt 2 = false := by
  refine ⟨_, _, rfl, rfl, by decide, ?_⟩
  have hreach : ReachableBy (system .twentySeconds)
      (LeaseOk .twentySeconds) _ := ReachableBy.checkedRun followerHeaderRun .init rfl
  apply (@restart_exclusive_iff _ _ _ hreach 2 1 0 0 _ rfl rfl _ _ _).mpr
  all_goals decide

/-- Node 1 writes a header while it is master; node 2 takes over when node 1's lease is over. -/
def masterHeaderRun : List Action :=
  [.tick 100, .setMaster 1 none, .leaseCheck 0, .sendMasterInfo 0, .choose 0 1, .execute 1 0,
    .execute 2 0, .chooseEvent 2, .execute 1 0, .writeHeader 1 2, .tick 21,
    .setMaster 2 none, .leaseCheck 0, .sendMasterInfo 0, .choose 1 3, .execute 2 0, .execute 2 0]

/-- When node 1 then restarts from its header, both nodes are master. -/
theorem restart_exclusive_fails :
    ∃ c c₁, ReachableBy (system .twentySeconds) (LeaseOk .twentySeconds) c ∧
      c.isMasterAt 2 = true ∧
      step Config.twentySeconds c (.restart 1 0 0) = some c₁ ∧
      c₁.isMasterAt 1 = true ∧ c₁.isMasterAt 2 = true := by
  refine ⟨_, _, ReachableBy.checkedRun masterHeaderRun .init rfl, ?_, rfl, ?_, ?_⟩
  · decide
  · decide
  · decide

end PhxSql.Master
