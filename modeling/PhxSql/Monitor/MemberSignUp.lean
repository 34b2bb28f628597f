import PhxSql.Monitor.EventMonitor

/-!
# No member is cut off

A replica signs up with the transactions it has executed, and the store looks for the last of them.
Files that hold them can have been deleted by checkpoints that used lists of any age. The file with
the last event that a member has executed is never among them, nor is any file after it.
-/

set_option autoImplicit false

namespace PhxSql.Monitor

open PhxSql.Proto PhxSql.Lib PhxSql.Gtid PhxSql.Store

variable {cx : Codecs}

/-! ## A sign-up at an event -/

/-- If nothing was deleted, an empty replica gets everything. -/
theorem signUp_nil {h : History} {segs : List Segment} (hinv : HistoryInv cx h segs)
    (hdeleted : h.deleted = []) :
    (signUpGTID cx h.store []).1 = .ok ∧
      ∀ n, getEvents cx n (signUpGTID cx h.store []).2 =
        (h.accepted.map AcceptedEvent.data).take n := by
  have hkept : h.kept = h.accepted := by
    simp [History.kept, hdeleted]
  -- The first file is there: the first event is in it, or it is still written to.
  obtain ⟨g, hg, hid⟩ : ∃ g ∈ segs, g.id = 0 := by
    cases haccepted : h.accepted with
    | nil =>
      obtain ⟨g, hlast, hw, -⟩ := hinv.rep.getLast?
      refine ⟨g, List.mem_of_getLast? hlast, genFileName_inj.mp ?_⟩
      rw [← hinv.fresh haccepted, hw]
      rfl
    | cons x rest =>
      have hx : x ∈ placedEvents cx segs := by
        rw [hinv.placed_eq_kept, hkept, haccepted]
        exact List.mem_cons_self
      obtain ⟨g, hg, _, _, -, hplace⟩ := placed_segment hx
      refine ⟨g, hg, genFileName_inj.mp ?_⟩
      rw [← hinv.first x (by rw [haccepted]; rfl), hplace]
      rfl
  obtain ⟨after, rfl⟩ := hinv.rep.files.eq_cons_of_id_zero hg hid
  have hfile : g.file = genFileName 0 := congrArg genFileName hid
  have hhead : (getAllFiles h.store.disk).keys.head? = some (genFileName 0) := by
    have hmem : genFileName 0 ∈ (getAllFiles h.store.disk).keys :=
      (mem_getAllFiles hinv.rep.files.named).mpr ⟨_, hfile ▸ hinv.rep.files.contents g hg⟩
    cases hkeys : (getAllFiles h.store.disk).keys with
    | nil =>
      rw [hkeys] at hmem
      cases hmem
    | cons f files =>
      have hpair := pairwise_keys (getAllFiles h.store.disk)
      rw [hkeys] at hmem hpair
      rcases List.mem_cons.mp hmem with rfl | hmem
      · rfl
      · have hlt := (List.pairwise_cons.mp hpair).1 _ hmem
        obtain ⟨bs, hbs⟩ := contains_of_mem_getAllFiles
          (show f ∈ (getAllFiles h.store.disk).keys from hkeys ▸ List.mem_cons_self)
        obtain ⟨n, hn, rfl⟩ := hinv.rep.files.named f bs hbs
        rw [fileRank_genFileName hn, fileRank_genFileName (by decide)] at hlt
        omega
  have hsign : signUpGTID cx h.store [] = (.ok, h.store.withReader { path := g.file }) := by
    simp only [signUpGTID, getLastGtid, List.isEmpty_nil, if_true, checkGtidInData_nil, hhead,
      ne_eq, not_true, if_false]
    exact reSet_nil hinv.rep
  rw [hsign]
  refine ⟨rfl, ?_⟩
  intro n
  rw [getEvents_eq n (h.store.withReader { path := g.file }) _ hinv.rep.files
    (@atRecords_start cx (g :: after) [] after g rfl)]
  have hevents : eventsOf (g :: after) = h.accepted.map AcceptedEvent.data := by
    rw [← map_data_placedEvents, hinv.placed_eq_kept, hkept]
  rw [← hevents]
  rfl

/-- If the newest stored event with a GTID of the list is this one and nothing after it was deleted,
a replica with the list gets everything from it on. -/
theorem signUp_at {h : History} {segs : List Segment} (hg : Grouped cx h segs) {gtids : List Bytes}
    (hne : ∀ gtid ∈ gtids, gtid ≠ []) {before after : List AcceptedEvent} {x : AcceptedEvent}
    (hsplit : h.accepted = before ++ x :: after) (hkept : ∀ y ∈ x :: after, y ∈ h.kept)
    (hholds : HoldsOneOf gtids x.data) (hnewest : ∀ y ∈ after, ¬HoldsOneOf gtids y.data) :
    (signUpGTID cx h.store gtids).1 = .ok ∧
      ∀ n, getEvents cx n (signUpGTID cx h.store gtids).2 =
        ((x :: after).map AcceptedEvent.data).take n := by
  have hnil : gtids ≠ [] := by
    obtain ⟨gtid, hgtid, -⟩ := hholds
    exact List.ne_nil_of_mem hgtid
  have hx := hkept x List.mem_cons_self
  have hok : (signUpGTID cx h.store gtids).1 = .ok := by
    have hg' := hg.looked (fun f hf => by
      obtain ⟨gtid, -, hfound⟩ := hf
      exact hg.inv.rep.fileName_of_known (hg.inv.known_of_found hfound))
      (@getLastGtid_looked cx h.store gtids)
    rcases hg.getLastGtid_cases hnil hne with ⟨r, hlast, hret, hgtid⟩ | ⟨hnone, -⟩
    · have hr := hlast.mem
      rw [hg.inv.storedEvents_eq] at hr
      obtain ⟨y, hy, rfl⟩ := List.mem_map.mp hr
      rw [signUpGTID, if_neg (not_not.mpr hret), hgtid, hg'.reSet_kept hy]
    · refine absurd hholds (hnone x.data ?_)
      rw [hg.inv.storedEvents_eq]
      exact List.mem_map_of_mem hx
  refine ⟨hok, ?_⟩
  obtain ⟨before', x', after', hkept', hholds', hafter', hget⟩ := hg.getEvents_signUp hnil hne hok
  have hstored : h.kept = (before.filter fun y => y.place.path ∉ h.deleted) ++ x :: after := by
    have hall : (x :: after).filter (fun y => decide (y.place.path ∉ h.deleted)) = x :: after := by
      rw [List.filter_eq_self]
      intro y hy
      simpa using (History.mem_kept.mp (hkept y hy)).2
    rw [History.kept, hsplit, List.filter_append, hall]
  have hids : h.kept.Pairwise fun y z => y.data.instanceId < z.data.instanceId :=
    hg.inv.ids.filter _
  -- The event that is found is this one: neither of the two is after the other.
  have hnotAfter : x ∉ after' := by
    intro hmem
    obtain ⟨gtid, hgtid, hx⟩ := hholds
    exact hafter' x hmem gtid hgtid hx
  have hnotBefore : x ∉ before' := by
    intro hmem
    have hlt : x.data.instanceId < x'.data.instanceId := by
      rw [hkept'] at hids
      exact (List.pairwise_append.mp hids).2.2 x hmem x' List.mem_cons_self
    have hx' : x' ∈ h.kept := by simp [hkept']
    rw [hstored] at hids hx'
    rcases List.mem_append.mp hx' with hx' | hx'
    · have hgt := (List.pairwise_append.mp hids).2.2 x' hx' x List.mem_cons_self
      omega
    · rcases List.mem_cons.mp hx' with rfl | hx'
      · omega
      · exact hnewest x' hx' hholds'
  obtain ⟨-, rfl, rfl⟩ :=
    (List.append_cons_inj_of_notMem hnotBefore hnotAfter).mp (hkept'.symm.trans hstored)
  exact hget

/-! ## The transactions of a member -/

theorem contains_of_mem_lastGtids {S : GtidSet} {gtid : Bytes} (h : gtid ∈ S.lastGtids) :
    S.Contains gtid := by
  obtain ⟨e, he, h⟩ := List.mem_flatMap.mp h
  obtain ⟨iv, hiv, rfl⟩ := List.mem_map.mp h
  exact ⟨e, he, iv, hiv, iv.2, (e.ordered iv hiv).1, Nat.le_refl _, rfl⟩

theorem GtidsOf.eq_nil {S : GtidSet} (h : GtidsOf [] S) : S = [] := by
  rw [List.eq_nil_iff_forall_not_mem]
  intro e he
  obtain ⟨iv, hiv⟩ := List.exists_mem_of_ne_nil _ (h.normal.nonempty e he)
  obtain ⟨r, hr, -⟩ := (h.contains_iff _).mp
    ⟨e, he, iv, hiv, iv.2, (e.ordered iv hiv).1, Nat.le_refl _, rfl⟩
  cases hr

/-- The last event that a member has executed holds the last GTID of its UUID. -/
theorem GtidsOf.last_holds {log : List EventData} (hlog : GroupLog cx log) {p : Nat}
    (hp : p < log.length) {S : GtidSet} (hS : GtidsOf (log.take (p + 1)) S) :
    HoldsOneOf S.lastGtids log[p] := by
  have hsplit : log = log.take p ++ log[p] :: log.drop (p + 1) := by
    rw [← List.drop_eq_getElem_cons hp, List.take_append_drop]
  obtain ⟨sid, first, last, hgroup, -, hnumbers⟩ := hlog.groups _ _ _ hsplit
  have htake : log.take (p + 1) = log.take p ++ [log[p]] := by
    rw [List.take_add_one, List.getElem?_eq_getElem hp, Option.toList_some]
  have hcontains : S.Contains (genGTID (genUUID sid) last) := by
    refine (hS.contains_iff _).mpr ⟨log[p], by rw [htake]; exact List.mem_concat_self, ?_⟩
    rw [← hgroup.gtid]
    exact hgroup.gtid_mem
  obtain ⟨e, he, iv, hiv, n, hfirst, hlast, heq⟩ := hcontains
  obtain ⟨huuid, rfl⟩ := genGTID_inj (colon_not_mem_genUUID _) (colon_not_mem_genUUID _) heq
  have hone := hS.oneInterval hlog e he
  rw [hone, List.mem_singleton] at hiv
  subst hiv
  have hmem : genGTID e.uuid (lastNumber e) ∈ S.lastGtids := by
    refine List.mem_flatMap.mpr ⟨e, he, List.mem_map.mpr ⟨(1, lastNumber e), ?_, rfl⟩⟩
    rw [hone]
    exact List.mem_singleton_self _
  refine ⟨_, hmem, ?_⟩
  obtain ⟨r, hr, hgtid⟩ := (hS.contains_iff _).mp (contains_of_mem_lastGtids hmem)
  rw [htake] at hr
  rcases List.mem_append.mp hr with hr | hr
  · -- An event before it has smaller numbers, but the last number is not smaller than its own.
    rw [show e.uuid = genUUID sid from huuid.symm] at hgtid
    have hlt := ((hnumbers _).mp ⟨r, hr, hgtid⟩).2
    have hle := hgroup.le
    simp only at hlast
    omega
  · rwa [List.mem_singleton.mp hr] at hgtid

/-- In every run: a member that a round of the monitor asks can sign up with the transactions it has
executed, if the node has accepted them, and gets all accepted events from the last of them on. So
no checkpoint ever removes an event that such a member still needs, however old the answers are that
the checkpoint goes by. -/
theorem member_never_cut_off (cx : Codecs) (g : GroupConfig) (hlog : GroupLog cx g.log)
    (s : CheckPointNode) (hr : Transition.ReachableBy (nodeSystem cx g) (Allowed g) s) (m : Nat)
    (hm : m ∈ g.asked) (c : DumpCommand) (hset : GtidsOf (g.log.take (s.progress m)) c.set)
    (hle : s.progress m ≤ s.history.accepted.length) :
    (dealWithGTIDCommand cx s.history.store c.encode).1 = .ok ∧
      ∀ n, getEvents cx n (dealWithGTIDCommand cx s.history.store c.encode).2 =
        ((g.log.take s.history.accepted.length).drop (s.progress m - 1)).take n := by
  have hstore := (monitorInv_of_reachable hlog hr).store
  obtain ⟨segs, hg⟩ := hstore.grouped
  have horder : s.history.accepted.map AcceptedEvent.data =
      g.log.take s.history.accepted.length := by
    have h := List.prefix_iff_eq_take.mp hstore.order
    rwa [List.length_map] at h
  rw [dealWithGTIDCommand_encode, ← horder, ← List.map_drop]
  cases hp : s.progress m with
  | zero =>
    -- The member has executed nothing, so that no file was ever removed.
    rw [hp, List.take_zero] at hset
    rw [hset.eq_nil]
    have hdeleted : s.history.deleted = [] := by
      rw [List.eq_nil_iff_forall_not_mem]
      intro f hf
      have hpos := hstore.removed.files f hf m hm
      omega
    exact signUp_nil hg.inv hdeleted
  | succ p =>
    rw [hp] at hset hle
    have hlen : s.history.accepted.length ≤ g.log.length := by
      have h := hstore.order.length_le
      rwa [List.length_map] at h
    have hdata : ∀ i (hi : i < s.history.accepted.length),
        (s.history.accepted[i]).data = g.log[i] := by
      intro i hi
      have h := (List.IsPrefix.getElem hstore.order (by simpa using hi)).symm
      rw [List.getElem_map] at h
      exact h.symm
    have hsplit : s.history.accepted = s.history.accepted.take p ++
        s.history.accepted[p] :: s.history.accepted.drop (p + 1) := by
      rw [← List.drop_eq_getElem_cons (by omega), List.take_append_drop]
    have hdrop : s.history.accepted.drop (p + 1 - 1) =
        s.history.accepted[p] :: s.history.accepted.drop (p + 1) := by
      rw [Nat.add_sub_cancel, List.drop_eq_getElem_cons (by omega)]
    rw [hdrop]
    apply signUp_at hg (fun gtid hgtid => ne_nil_of_mem_lastGtids hgtid) hsplit
    · intro y hy
      rw [← hdrop, Nat.add_sub_cancel] at hy
      obtain ⟨i, hi, rfl⟩ := List.mem_iff_getElem.mp hy
      rw [List.length_drop] at hi
      rw [List.getElem_drop]
      refine History.mem_kept.mpr ⟨List.getElem_mem _, ?_⟩
      intro hfile
      have hgone := hstore.removed.events _ (List.getElem_mem _) hfile m hm
      rw [hp, hdata (p + i) (by omega)] at hgone
      have hlt := hlog.lt_of_mem_take (by omega) hgone
      omega
    · rw [hdata p (by omega)]
      exact hset.last_holds hlog (by omega)
    · intro y hy hholds
      obtain ⟨gtid, hgtid, hmem⟩ := hholds
      obtain ⟨r, hr', hgtid'⟩ := (hset.contains_iff gtid).mp (contains_of_mem_lastGtids hgtid)
      obtain ⟨i, hi, rfl⟩ := List.mem_iff_getElem.mp hy
      rw [List.length_drop] at hi
      rw [List.getElem_drop, hdata (p + 1 + i) (by omega)] at hmem
      -- The event is the one that the member has executed, which is before it.
      rw [hlog.eq_of_gtid (List.mem_of_mem_take hr') (List.getElem_mem _) hgtid' hmem] at hr'
      have hlt := hlog.lt_of_mem_take (by omega) hr'
      omega

/-! ### Three events, and a member that is one behind -/

def sampleLog (k : Nat) : List EventData :=
  (List.range' 1 k).map sampleEvent

theorem groupGtids_sampleEvent :
    ∀ i ∈ List.range' 1 3, groupGtids (sampleEvent i) = [sampleGtid i] := by
  decide

theorem exists_mem_sampleLog {k : Nat} (hk : k ≤ 3) (gtid : Bytes) :
    (∃ r ∈ sampleLog k, gtid ∈ groupGtids r) ↔ ∃ n, 1 ≤ n ∧ n ≤ k ∧ gtid = sampleGtid n := by
  rw [← exists_mem_map_bare]
  apply mem_groupGtids_sample
  · rw [List.map_map]
    exact List.map_id _
  · intro i hi
    obtain ⟨hi₁, hi₂⟩ := List.mem_range'_1.mp hi
    exact groupGtids_sampleEvent i (List.mem_range'_1.mpr ⟨hi₁, by omega⟩)

theorem take_sampleLog : ∀ k ∈ List.range 4, (sampleLog 3).take k = sampleLog k := by
  decide

theorem groupLog_sampleLog : GroupLog wireCodecs (sampleLog 3) where
  ids := by decide
  valid := by decide
  groups := by
    intro before r after hsplit
    have hlen : before.length < 3 := by
      have h := congrArg List.length hsplit
      simp only [sampleLog, List.length_map, List.length_range', List.length_append,
        List.length_cons] at h
      omega
    have hbefore : before = sampleLog before.length := by
      rw [← take_sampleLog _ (List.mem_range.mpr (by omega)), hsplit, List.take_left]
    have hr : r = sampleEvent (before.length + 1) := by
      have h : (sampleLog 3)[before.length]? = some r := by
        rw [hsplit, List.getElem?_append_right (Nat.le_refl _), Nat.sub_self]
        rfl
      rw [sampleLog, List.getElem?_map, List.getElem?_range' (by omega)] at h
      simpa [Nat.add_comm] using h.symm
    have hmem : before.length + 1 ∈ List.range' 1 3 := List.mem_range'_1.mpr ⟨by omega, by omega⟩
    have hparsed : ∀ i ∈ List.range' 1 3, (parseEventList (sampleEvent i).data).1 = .ok := by
      decide
    refine ⟨sampleSid, before.length + 1, before.length + 1, ?_, by omega, ?_⟩
    · rw [hr]
      exact isGroup_sampleEvent (by omega) (hparsed _ hmem) (groupGtids_sampleEvent _ hmem)
    · intro n
      rw [hbefore, exists_mem_sampleLog (by omega), ← hbefore]
      constructor
      · rintro ⟨m, hm, hm', heq⟩
        obtain ⟨-, rfl⟩ := genGTID_inj (colon_not_mem_genUUID _) (colon_not_mem_genUUID _) heq
        omega
      · rintro ⟨hn, hn'⟩
        exact ⟨n, hn, by omega, rfl⟩

/-- The transactions of the first events. -/
theorem gtidsOf_sampleLog {k : Nat} (hk : k ≤ 3)
    (ordered : ∀ iv ∈ [(1, k)], iv.1 ≤ iv.2 ∧ iv.2 + 1 < 2 ^ 64) :
    GtidsOf (sampleLog k) [⟨sampleSid, [(1, k)], length_sampleSid, ordered⟩] where
  normal := by
    refine ⟨List.pairwise_singleton .., ?_, ?_⟩
    · intro e he
      rw [List.mem_singleton.mp he]
      exact List.cons_ne_nil _ _
    · intro e he
      rw [List.mem_singleton.mp he]
      exact List.pairwise_singleton ..
  contains_iff := by
    intro gtid
    rw [exists_mem_sampleLog hk]
    constructor
    · rintro ⟨e, he, iv, hiv, n, hfirst, hlast, rfl⟩
      rw [List.mem_singleton.mp he] at hiv ⊢
      rw [List.mem_singleton.mp hiv] at hfirst hlast
      exact ⟨n, hfirst, hlast, rfl⟩
    · rintro ⟨n, hn, hn', rfl⟩
      exact ⟨_, List.mem_singleton_self _, (1, k), List.mem_singleton_self _, n, hn, hn', rfl⟩

/-- Two members; this node is the first one. -/
def sampleGroup : GroupConfig where
  log := sampleLog 3
  members := [0, 1]
  self := 0
  force := false

theorem firstThree_ordered : ∀ iv ∈ [(1, 3)], iv.1 ≤ iv.2 ∧ iv.2 + 1 < 2 ^ 64 := by
  decide

/-- The answer of a member that has executed two or all of the events. -/
def sampleAnswer (p : Nat) : RetCode × Bytes :=
  if p = 2 then (.ok, firstTwoCommand.set.text)
  else (.ok, GtidSet.text [⟨sampleSid, [(1, 3)], length_sampleSid, firstThree_ordered⟩])

/-- The side condition of the runs in a form that can be evaluated. -/
def sampleAllowed (s : CheckPointNode) : NodeAction → Bool
  | .store (.addEvent _ _ data) => (sampleLog 3)[s.history.accepted.length]? = some data
  | .answer a =>
    match s.phase with
    | .asking (m :: _) _ => (s.progress m = 2 ∨ s.progress m = 3) ∧ a = sampleAnswer (s.progress m)
    | _ => false
  | _ => true

theorem allowed_of_sample (s : CheckPointNode) (a : NodeAction)
    (h : sampleAllowed s a = true) : Allowed sampleGroup s a := by
  cases a with
  | store a =>
    cases a with
    | addEvent maxSize master data => simpa [sampleAllowed, Allowed, sampleGroup] using h
    | _ => trivial
  | answer a =>
    simp only [sampleAllowed] at h
    split at h
    · rename_i m left answers hphase
      obtain ⟨hp, ha⟩ := of_decide_eq_true h
      have htake := take_sampleLog (s.progress m) (List.mem_range.mpr (by omega))
      rcases hp with hp | hp
      · refine .inr ⟨left, answers, m, _, hphase, ?_, ha.trans (if_pos hp)⟩
        rw [show sampleGroup.log = sampleLog 3 from rfl, htake, hp]
        exact gtidsOf_sampleLog (by decide) firstTwo_ordered
      · refine .inr ⟨left, answers, m, _, hphase, ?_, ha.trans (if_neg (by omega))⟩
        rw [show sampleGroup.log = sampleLog 3 from rfl, htake, hp]
        exact gtidsOf_sampleLog (by decide) firstThree_ordered
    · cases h
  | _ => trivial

/-- One round of the monitor. -/
def sampleRound (now : Nat) : List NodeAction :=
  [.wake, .answer (sampleAnswer 3), .answer (sampleAnswer 2), .answered false,
    .make { now := now, delNow := now, period := 30, maxNum := 10, fileTime := fun _ => 0 }, .done]

/-- Three events in three files, of which the second member executes two, and two rounds. -/
def sampleNodeRun : List NodeAction :=
  [.store (sampleAdd 1), .store (sampleAdd 2), .store (sampleAdd 3), .execute 0, .execute 0,
    .execute 0, .execute 1, .execute 1] ++ sampleRound 100 ++ sampleRound 200

def sampleNode : Option CheckPointNode :=
  Transition.checkedRun (nodeSystem wireCodecs sampleGroup) (fun s a => sampleAllowed s a = true) {}
    sampleNodeRun

theorem member_never_cut_off_behind :
    ∃ s, sampleNode = some s ∧ s.history.deleted = [genFileName 0] ∧ s.progress 1 = 2 ∧
      (dealWithGTIDCommand wireCodecs s.history.store firstTwoCommand.encode).1 = .ok ∧
      getEvents wireCodecs 5
        (dealWithGTIDCommand wireCodecs s.history.store firstTwoCommand.encode).2 =
          [sampleEvent 2, sampleEvent 3] := by
  have hrun : sampleNode.map (fun s =>
      (s.history.deleted, s.progress 1, s.history.accepted.length)) =
        some ([genFileName 0], 2, 3) := by
    decide +kernel
  obtain ⟨s, hs, hvalues⟩ := Option.map_eq_some_iff.mp hrun
  simp only [Prod.mk.injEq] at hvalues
  obtain ⟨hdeleted, hprogress, haccepted⟩ := hvalues
  have hreach := (Transition.ReachableBy.checkedRun sampleNodeRun .init hs).mono
    allowed_of_sample
  have hset : GtidsOf (sampleGroup.log.take (s.progress 1)) firstTwoCommand.set := by
    rw [hprogress]
    exact gtidsOf_sampleLog (by decide) firstTwo_ordered
  obtain ⟨hret, hget⟩ := member_never_cut_off wireCodecs sampleGroup groupLog_sampleLog s hreach 1
    (by decide) firstTwoCommand hset (by rw [hprogress, haccepted]; decide)
  refine ⟨s, hs, hdeleted, hprogress, hret, ?_⟩
  rw [hget, hprogress, haccepted]
  decide

end PhxSql.Monitor
