import PhxSql.Master.RecordHistory

/-!
# The accounts a node uses

The master record lists the accounts that administrators have set, the newest last, for the
administration of MySQL and for replication. A node does not use a new account at once, since the
account reaches its MySQL by replication: in every round of the monitor `CheckMySqlUserInfo` goes
through the list of a copy of the record from the newest account down to the one in use and takes the
first that MySQL confirms, unless the record has changed meanwhile.

The group goes on between any two of these steps. The accounts a node has used since it started are,
in their order, a subsequence of the list (`Followed`), which itself only grows.
-/

set_option autoImplicit false

namespace PhxSql.Monitor

open PhxSql.Proto PhxSql.Master PhxSql.Lib.Transition

/-- The two lists of accounts. -/
inductive AccountKind
  | admin
  | replica
  deriving DecidableEq, Repr

def AccountKind.listed : AccountKind → MasterInfo → List UserInfo
  | .admin, info => info.adminUserinfo
  | .replica, info => info.replicaUserinfo

/-- The empty names a process starts with. -/
def noAccount : UserInfo where
  username := []
  pwd := []

/-- Where `CheckMySqlUserInfo` stands. -/
inductive CheckPhase
  | idle
  /-- The loop over the accounts of a kind: the copy of the record and the accounts still to be
  looked at, the newest first. -/
  | looking (kind : AccountKind) (info : MasterInfo) (rest : List UserInfo)
  /-- MySQL has confirmed the account that is to be set. -/
  | confirmed (kind : AccountKind) (info : MasterInfo) (user : UserInfo)
  deriving DecidableEq, Repr

/-- The accounts of a node: those it has used since it started, in their order, and its check. -/
structure AccountNode where
  used : AccountKind → List UserInfo := fun _ => []
  phase : CheckPhase := .idle

/-- The account in use: `admin_username_` and `admin_pwd_`, or those for replication. -/
def AccountNode.current (s : AccountNode) (kind : AccountKind) : UserInfo :=
  (s.used kind).getLast?.getD noAccount

/-- The loop over the accounts of a kind begins. -/
def CheckPhase.lookAt (kind : AccountKind) (info : MasterInfo) : CheckPhase :=
  .looking kind info (kind.listed info).reverse

/-- What follows when the accounts of a kind are done. -/
def CheckPhase.after : AccountKind → MasterInfo → CheckPhase
  | .admin, info => .lookAt .replica info
  | .replica, _ => .idle

/-- `MasterStorage::SetMySqlAdminInfo` and `SetMySqlReplicaInfo`, called if the name is not empty;
`master` is the record now and `info` the copy the account was found in. -/
def AccountNode.setAccount (s : AccountNode) (master info : MasterInfo) (kind : AccountKind)
    (user : UserInfo) : AccountNode :=
  if user.username ≠ [] ∧ info.version = master.version then
    { s with used := Function.update s.used kind (s.used kind ++ [user]) }
  else s

/-- One step of `MySqlManager::CheckMySqlUserInfo`; `confirms` is the answer of `CheckAdminUser` or
`CheckReplicaUser` for the account that is looked at. -/
def checkStep (master : MasterInfo) (confirms : Bool) (s : AccountNode) : AccountNode :=
  match s.phase with
  | .idle => { s with phase := .lookAt .admin master }
  | .looking kind info [] => { s with phase := .after kind info }
  | .looking kind info (user :: rest) =>
    if user = s.current kind then { s with phase := .after kind info }
    else if confirms then { s with phase := .confirmed kind info user }
    else { s with phase := .looking kind info rest }
  | .confirmed kind info user =>
    { s.setAccount master info kind user with phase := .after kind info }

/-- The nodes of the group with their accounts. -/
structure AccountGroup where
  cluster : Cluster := {}
  accounts : Nat → AccountNode := fun _ => {}

inductive AccountAction
  | cluster (a : Master.Action)
  /-- The next step of `CheckMySqlUserInfo` at node `n`. -/
  | check (n : Nat) (confirms : Bool)

/-- A node that restarts has forgotten its accounts. -/
def afterAction (a : Master.Action) (accounts : Nat → AccountNode) : Nat → AccountNode :=
  match a.restarted with
  | some n => Function.update accounts n {}
  | none => accounts

def accountStep (cfg : Config) (g : AccountGroup) : AccountAction → Option AccountGroup
  | .cluster a =>
    (Master.step cfg g.cluster a).map fun c =>
      { cluster := c, accounts := afterAction a g.accounts }
  | .check n confirms =>
    let s := checkStep (g.cluster.nodes n).master confirms (g.accounts n)
    some { g with accounts := Function.update g.accounts n s }

/-- The group and its accounts as a transition system. -/
def accountSystem (cfg : Config) : System AccountGroup AccountAction where
  init := {}
  step := accountStep cfg

/-! ## Subsequences of the list -/

/-- The accounts used are a subsequence of the list up to the place of the last of them. -/
def Followed (listed used : List UserInfo) : Prop :=
  ∀ current, used.getLast? = some current →
    ∃ older newer, listed = older ++ current :: newer ∧ used.Sublist (older ++ [current])

theorem followed_nil (listed : List UserInfo) : Followed listed [] := by
  intro current h
  cases h

theorem Followed.mono {listed listed' used : List UserInfo} (h : Followed listed used)
    (hle : listed <+: listed') : Followed listed' used := by
  intro current hcurrent
  obtain ⟨older, newer, rfl, hused⟩ := h current hcurrent
  obtain ⟨more, rfl⟩ := hle
  exact ⟨older, newer ++ more, by simp, hused⟩

theorem Followed.sublist {listed used : List UserInfo} (h : Followed listed used) :
    used.Sublist listed := by
  cases hlast : used.getLast? with
  | none =>
    rw [List.getLast?_eq_none_iff.mp hlast]
    exact List.nil_sublist _
  | some current =>
    obtain ⟨older, newer, rfl, hused⟩ := h current hlast
    exact hused.trans (by simp)

/-- An account behind the last place of the one in use goes on with the subsequence. -/
theorem Followed.concat {older newer used : List UserInfo} {user : UserInfo}
    (h : Followed (older ++ user :: newer) used)
    (hcurrent : ∀ current, used.getLast? = some current → current ∉ user :: newer) :
    Followed (older ++ user :: newer) (used ++ [user]) := by
  have hused : used.Sublist older := by
    cases hlast : used.getLast? with
    | none =>
      rw [List.getLast?_eq_none_iff.mp hlast]
      exact List.nil_sublist _
    | some current =>
      obtain ⟨older', newer', hsplit, hused⟩ := h current hlast
      have hnot := hcurrent current hlast
      -- The place of the account in use is in the older part.
      rcases List.append_eq_append_iff.mp hsplit with ⟨t, hold, ht⟩ | ⟨t, rfl, ht⟩
      · exact absurd (ht ▸ List.mem_append_right t List.mem_cons_self) hnot
      · cases t with
        | nil =>
          obtain ⟨rfl, -⟩ := List.cons.inj ht
          exact absurd List.mem_cons_self hnot
        | cons x t =>
          obtain ⟨rfl, -⟩ := List.cons.inj ht
          exact hused.trans (by simp)
  intro current hlast
  obtain rfl : user = current := by simpa using hlast
  exact ⟨older, newer, rfl, hused.append (List.Sublist.refl _)⟩

/-! ## The invariant -/

/-- What the check of a node has found so far in the list of its copy: the accounts behind those
still to be looked at are not in use. -/
def CheckPhase.Sound (log : List Instance) (s : AccountNode) : CheckPhase → Prop
  | .idle => True
  | .looking kind info rest =>
    Holds log info 0 ∧ ∃ newer, kind.listed info = rest.reverse ++ newer ∧ s.current kind ∉ newer
  | .confirmed kind info user =>
    Holds log info 0 ∧
      ∃ older newer, kind.listed info = older ++ user :: newer ∧ s.current kind ∉ user :: newer

structure AccountInv (log : List Instance) (master : MasterInfo) (s : AccountNode) : Prop where
  followed : ∀ kind, Followed (kind.listed master) (s.used kind)
  named : ∀ kind, ∀ user ∈ s.used kind, user.username ≠ []
  phase : s.phase.Sound log s

theorem accountInv_fresh (log : List Instance) (master : MasterInfo) : AccountInv log master {} where
  followed _ := followed_nil _
  named _ _ h := by cases h
  phase := trivial

theorem listed_prefix_of_moves {log : List Instance} (hlog : BuiltLog log) {m m' : MasterInfo}
    (h : Moves log m m') (kind : AccountKind) : kind.listed m <+: kind.listed m' := by
  obtain ⟨hadmin, hreplica⟩ := h.userinfo hlog
  cases kind with
  | admin => exact hadmin
  | replica => exact hreplica

theorem CheckPhase.Sound.mono {log log' : List Instance} {s : AccountNode} {phase : CheckPhase}
    (h : phase.Sound log s) (hle : log <+: log') : phase.Sound log' s := by
  cases phase with
  | idle => trivial
  | looking kind info rest => exact ⟨h.1.mono hle (Nat.le_refl 0), h.2⟩
  | confirmed kind info user => exact ⟨h.1.mono hle (Nat.le_refl 0), h.2⟩

theorem CheckPhase.sound_lookAt {log : List Instance} {info : MasterInfo} (h : Holds log info 0)
    (s : AccountNode) (kind : AccountKind) : (CheckPhase.lookAt kind info).Sound log s :=
  ⟨h, [], by simp, by simp⟩

theorem CheckPhase.sound_after {log : List Instance} {info : MasterInfo} (h : Holds log info 0)
    (s : AccountNode) (kind : AccountKind) : (CheckPhase.after kind info).Sound log s := by
  cases kind with
  | admin => exact CheckPhase.sound_lookAt h s .replica
  | replica => trivial

/-- The group goes on while a node checks its accounts. -/
theorem AccountInv.moves {log log' : List Instance} (hlog : BuiltLog log') (hle : log <+: log')
    {m m' : MasterInfo} {s : AccountNode} (h : AccountInv log m s) (hm : Moves log' m m') :
    AccountInv log' m' s where
  followed kind := (h.followed kind).mono (listed_prefix_of_moves hlog hm kind)
  named := h.named
  phase := h.phase.mono hle

/-- A copy with the version of the record has the accounts of the record. -/
theorem listed_of_version {log : List Instance} (hlog : BuiltLog log) {info master : MasterInfo}
    {k : Nat} (hinfo : Holds log info 0) (hmaster : Holds log master k)
    (hver : info.version = master.version) (kind : AccountKind) :
    kind.listed info = kind.listed master := by
  obtain ⟨L, hL, -, hi⟩ := hinfo
  obtain ⟨L', hL', -, hm⟩ := hmaster
  rw [← erase_version info, ← erase_version master, hi, hm] at hver
  have heq : erase info = erase master := by rw [hi, hm, hlog.eq_of_version hL hL' hver]
  cases kind with
  | admin =>
    show (erase info).adminUserinfo = (erase master).adminUserinfo
    rw [heq]
  | replica =>
    show (erase info).replicaUserinfo = (erase master).replicaUserinfo
    rw [heq]

theorem AccountNode.current_of_getLast? {s : AccountNode} {kind : AccountKind} {user : UserInfo}
    (h : (s.used kind).getLast? = some user) : s.current kind = user := by
  rw [AccountNode.current, h, Option.getD_some]

/-- Setting the account that was found goes on with the subsequence. -/
theorem AccountInv.setAccount {log : List Instance} (hlog : BuiltLog log) {info master : MasterInfo}
    {k : Nat} (hmaster : Holds log master k) {s : AccountNode} (h : AccountInv log master s)
    {kind : AccountKind} {user : UserInfo}
    (hfound : (CheckPhase.confirmed kind info user).Sound log s) (kind' : AccountKind) :
    Followed (kind'.listed master) ((s.setAccount master info kind user).used kind') ∧
      ∀ u ∈ (s.setAccount master info kind user).used kind', u.username ≠ [] := by
  unfold AccountNode.setAccount
  split
  · next hset =>
    obtain ⟨hname, hver⟩ := hset
    rcases eq_or_ne kind' kind with rfl | hne
    · obtain ⟨hinfo, older, newer, hlisted, hcurrent⟩ := hfound
      rw [listed_of_version hlog hinfo hmaster hver] at hlisted
      simp only [Function.update_self]
      constructor
      · have hfollowed := h.followed kind'
        rw [hlisted] at hfollowed ⊢
        refine hfollowed.concat fun current hlast => ?_
        rwa [← AccountNode.current_of_getLast? hlast]
      · intro u hu
        rcases List.mem_append.mp hu with hu | hu
        · exact h.named kind' u hu
        · rw [List.mem_singleton.mp hu]
          exact hname
    · simp only [Function.update_of_ne hne]
      exact ⟨h.followed kind', h.named kind'⟩
  · exact ⟨h.followed kind', h.named kind'⟩

/-- One step of the check. -/
theorem accountInv_check {log : List Instance} (hlog : BuiltLog log) {master : MasterInfo} {k : Nat}
    (hmaster : Holds log master k) {s : AccountNode} (h : AccountInv log master s)
    (confirms : Bool) : AccountInv log master (checkStep master confirms s) := by
  have hphase := h.phase
  unfold checkStep
  cases hs : s.phase with
  | idle =>
    exact ⟨h.followed, h.named,
      CheckPhase.sound_lookAt (hmaster.mono List.prefix_rfl (Nat.zero_le k)) _ _⟩
  | looking kind info rest =>
    rw [hs] at hphase
    obtain ⟨hinfo, newer, hlisted, hcurrent⟩ := hphase
    cases rest with
    | nil => exact ⟨h.followed, h.named, CheckPhase.sound_after hinfo _ _⟩
    | cons user rest =>
      dsimp only
      rw [List.reverse_cons, List.append_assoc, List.singleton_append] at hlisted
      split
      · exact ⟨h.followed, h.named, CheckPhase.sound_after hinfo _ _⟩
      · next hne =>
        -- The account is not the one in use, so it joins those behind.
        have hnot : s.current kind ∉ user :: newer := by
          rw [List.mem_cons, not_or]
          exact ⟨fun heq => hne heq.symm, hcurrent⟩
        split
        · exact ⟨h.followed, h.named, hinfo, rest.reverse, newer, hlisted, hnot⟩
        · exact ⟨h.followed, h.named, hinfo, user :: newer, hlisted, hnot⟩
  | confirmed kind info user =>
    rw [hs] at hphase
    have hset := h.setAccount hlog hmaster hphase
    exact ⟨fun kind' => (hset kind').1, fun kind' => (hset kind').2,
      CheckPhase.sound_after hphase.1 _ _⟩

/-- The group agrees with its log and every node follows the list of its record. -/
structure AccountGroupInv (g : AccountGroup) : Prop where
  cluster : LogInv g.cluster
  accounts : ∀ n, AccountInv g.cluster.log (g.cluster.nodes n).master (g.accounts n)

theorem accountGroupInv_step {cfg : Config} {g g' : AccountGroup} {a : AccountAction}
    (h : AccountGroupInv g) (hs : accountStep cfg g a = some g') : AccountGroupInv g' := by
  cases a with
  | cluster a =>
    obtain ⟨c, hc, rfl⟩ := Option.map_eq_some_iff.mp hs
    have hinv := logInv_step h.cluster hc
    refine ⟨hinv, fun n => ?_⟩
    have hstay : a.restarted ≠ some n → AccountInv c.log (c.nodes n).master (g.accounts n) :=
      fun hn => (h.accounts n).moves hinv.built (log_prefix_of_step hc) (h.cluster.moves hc hn)
    cases hrestarted : a.restarted with
    | none =>
      simp only [afterAction, hrestarted]
      exact hstay fun heq => by rw [hrestarted] at heq; cases heq
    | some m =>
      simp only [afterAction, hrestarted]
      rcases eq_or_ne n m with rfl | hne
      · rw [Function.update_self]
        exact accountInv_fresh _ _
      · rw [Function.update_of_ne hne]
        exact hstay fun heq => hne (Option.some.inj (heq.symm.trans hrestarted))
  | check m confirms =>
    cases hs
    refine ⟨h.cluster, fun n => ?_⟩
    rcases eq_or_ne n m with rfl | hne
    · simp only [Function.update_self]
      exact accountInv_check h.cluster.built (h.cluster.nodes n) (h.accounts n) confirms
    · simp only [Function.update_of_ne hne]
      exact h.accounts n

theorem accountGroupInv_of_reachable {cfg : Config} {g : AccountGroup}
    (h : Reachable (accountSystem cfg) g) : AccountGroupInv g := by
  apply h.invariant ⟨logInv_init cfg, fun _ => accountInv_fresh _ _⟩
  intro s a s' hinv _ hs
  exact accountGroupInv_step hinv hs

/-- However checks of accounts, answers of MySQL, changes of the master record and restarts follow
each other: the accounts a node has used since it started, in the order in which it used them, are a
subsequence of the accounts of its record, and these are the first ones of the accounts the group has
set. So no node goes back to an account that was set before the one it uses. -/
theorem accounts_followed_in_order {cfg : Config} {g : AccountGroup}
    (h : Reachable (accountSystem cfg) g) (n : Nat) (kind : AccountKind) :
    ((g.accounts n).used kind).Sublist (kind.listed (g.cluster.nodes n).master) ∧
      kind.listed (g.cluster.nodes n).master <+: kind.listed (logState g.cluster.log) ∧
      ∀ user ∈ (g.accounts n).used kind, user.username ≠ [] := by
  have hinv := accountGroupInv_of_reachable h
  obtain ⟨L, hL, -, hm⟩ := hinv.cluster.nodes n
  have hmoves : Moves g.cluster.log (g.cluster.nodes n).master (logState g.cluster.log) :=
    ⟨L, g.cluster.log, hL, List.prefix_rfl, hm, erase_logState _⟩
  exact ⟨((hinv.accounts n).followed kind).sublist, listed_prefix_of_moves hinv.cluster.built hmoves kind,
    (hinv.accounts n).named kind⟩

/-- A name of an account, without password. -/
def sampleUser (c : UInt8) : UserInfo where
  username := [c]
  pwd := []

/-- Node 1 is master and sets the accounts `a` and then `b`. Node 2 takes `a`; when it knows of `b`
its MySQL does not know it yet and confirms it in a later round only. -/
def rotationRun : List AccountAction :=
  ([.tick 100, .setMaster 1 none, .leaseCheck 0, .sendMasterInfo 0, .choose 0 1, .execute 1 0,
    .execute 2 0, .setMySqlAdminInfo 1 (sampleUser 97), .leaseCheck 0, .sendMasterInfo 0, .choose 1 2,
    .execute 1 0, .execute 2 0].map .cluster) ++
  [.check 2 false, .check 2 true, .check 2 false, .check 2 false] ++
  ([.setMySqlAdminInfo 1 (sampleUser 98), .leaseCheck 0, .sendMasterInfo 0, .choose 2 3, .execute 1 0,
    .execute 2 0].map .cluster) ++
  [.check 2 false, .check 2 false, .check 2 false, .check 2 false,
    .check 2 false, .check 2 true, .check 2 false]

theorem accounts_followed_in_order_rotation :
    ∃ g, run (accountSystem .twentySeconds) {} rotationRun = some g ∧
      (g.accounts 2).used .admin = [sampleUser 97, sampleUser 98] ∧
      ((g.accounts 2).used .admin).Sublist (g.cluster.nodes 2).master.adminUserinfo := by
  have hs : (run (accountSystem .twentySeconds) {} rotationRun).map
      (fun g => (g.accounts 2).used .admin) = some [sampleUser 97, sampleUser 98] := by
    decide +kernel
  obtain ⟨g, hg, hused⟩ := Option.map_eq_some_iff.mp hs
  have hreach := @reachable_of_run _ _ (accountSystem .twentySeconds) rotationRun _ hg
  exact ⟨g, hg, hused, (accounts_followed_in_order hreach 2 .admin).1⟩

end PhxSql.Monitor
