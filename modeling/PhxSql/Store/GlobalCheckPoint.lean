import PhxSql.Monitor.MasterMonitor
import PhxSql.Store.Groups

/-!
# Checkpoint deletion keeps what a member needs

Every member has executed the transactions of some prefix of the accepted events. For each UUID the
monitor takes the smallest of the members' last GTIDs, and the checkpoint takes the newest file that
holds one of these. The events of that GTID were executed by every member, so every event before it
was, and the files that are deleted hold only such events.
-/

set_option autoImplicit false

namespace PhxSql.Store

open PhxSql.Proto PhxSql.Lib PhxSql.Gtid PhxSql.Monitor

/-! ## Numbers without gaps -/

variable (cx : Codecs)

/-- The group that is added continues the numbers of its UUID, which start at 1. -/
def ConsecutiveAdd (h : History) : StoreAction → Prop
  | .addEvent _ _ data =>
    (∃ sid first last, IsGroup data sid first last ∧ 1 ≤ first ∧
      ∀ n, (∃ x ∈ h.accepted, genGTID (genUUID sid) n ∈ groupGtids x.data) ↔ 1 ≤ n ∧ n < first) ∧
      data.instanceId < 2 ^ 64 ∧ (cx.eventData.serialize data).isSome = true
  | _ => True

variable {cx}

/-- Each UUID has the numbers from 1 to some last one. -/
def Contiguous (log : List AcceptedEvent) : Prop :=
  ∀ sid, ∃ k, ∀ n,
    (∃ x ∈ log, genGTID (genUUID sid) n ∈ groupGtids x.data) ↔ 1 ≤ n ∧ n ≤ k

theorem groupAdd_of_consecutive {h : History} {segs : List Segment} (hg : Grouped cx h segs)
    {a : StoreAction} (ha : ConsecutiveAdd cx h a) : GroupAdd cx h a := by
  cases a with
  | addEvent maxSize master data =>
    obtain ⟨⟨sid, first, last, hgroup, -, hnumbers⟩, hid, hser⟩ := ha
    refine ⟨⟨sid, first, last, hgroup, ?_⟩, hid, hser⟩
    intro x hx huuid
    obtain ⟨sid', first', last', hgroup'⟩ := hg.groups x hx
    rw [hgroup'.parse] at huuid ⊢
    have hmem : genGTID (genUUID sid) last' ∈ groupGtids x.data := by
      rw [← huuid, ← hgroup'.gtid]
      exact hgroup'.gtid_mem
    exact ((hnumbers last').mp ⟨x, hx, hmem⟩).2
  | makeCheckPoint => trivial
  | getGTIDInfo => trivial
  | getLastGtid => trivial
  | reSet => trivial

/-- Adding the next group of a UUID leaves no gap. -/
theorem Contiguous.concat {log : List AcceptedEvent} (h : Contiguous log) {x : AcceptedEvent}
    {sid : Bytes} {first last : Nat} (hgroup : IsGroup x.data sid first last) (hfirst : 1 ≤ first)
    (hnumbers : ∀ n, (∃ y ∈ log, genGTID (genUUID sid) n ∈ groupGtids y.data) ↔
      1 ≤ n ∧ n < first) : Contiguous (log ++ [x]) := by
  have hsplit : ∀ sid' n, (∃ y ∈ log ++ [x], genGTID (genUUID sid') n ∈ groupGtids y.data) ↔
      (∃ y ∈ log, genGTID (genUUID sid') n ∈ groupGtids y.data) ∨
        genGTID (genUUID sid') n ∈ groupGtids x.data := by
    intro sid' n
    simp only [List.mem_append, List.mem_singleton, or_and_right, exists_or, exists_eq_left]
  have hle := hgroup.le
  intro sid'
  by_cases huuid : genUUID sid' = genUUID sid
  · -- The numbers below the first of the group and those of the group make a row from 1 on.
    refine ⟨last, ?_⟩
    intro n
    have hnew : genGTID (genUUID sid) n ∈ groupGtids x.data ↔ first ≤ n ∧ n ≤ last := by
      rw [hgroup.mem_groupGtids]
      constructor
      · rintro ⟨m, hm, hm', heq⟩
        obtain ⟨-, rfl⟩ := genGTID_inj (colon_not_mem_genUUID _) (colon_not_mem_genUUID _) heq
        exact ⟨hm, hm'⟩
      · rintro ⟨hn, hn'⟩
        exact ⟨n, hn, hn', rfl⟩
    rw [hsplit, huuid, hnumbers, hnew]
    omega
  · obtain ⟨k, hk⟩ := h sid'
    refine ⟨k, ?_⟩
    intro n
    have hnot : genGTID (genUUID sid') n ∉ groupGtids x.data := by
      rw [hgroup.mem_groupGtids]
      rintro ⟨m, -, -, heq⟩
      exact huuid (genGTID_inj (colon_not_mem_genUUID _) (colon_not_mem_genUUID _) heq).1
    rw [hsplit, hk, or_iff_left hnot]

theorem contiguous_of_reachable {h : History}
    (hr : Transition.ReachableBy (historySystem cx) (ConsecutiveAdd cx) h) :
    ∃ segs, Grouped cx h segs ∧ ∀ executed, executed <+: h.accepted → Contiguous executed := by
  induction hr with
  | init =>
    refine ⟨_, grouped_empty, ?_⟩
    intro executed hpre
    rw [List.prefix_nil.mp hpre]
    intro sid
    refine ⟨0, ?_⟩
    intro n
    simp only [List.not_mem_nil, false_and, exists_false, false_iff]
    omega
  | @step h h' a _ ha hs ih =>
    obtain ⟨segs, hg, hcont⟩ := ih
    cases hs
    have hadd := groupAdd_of_consecutive hg ha
    obtain ⟨segs', hstep⟩ := stepped_of_step hg.inv a
      (addable_of_newCanonical (newCanonical_of_groupAdd hadd))
    refine ⟨segs', hg.stepped hadd hstep, ?_⟩
    intro executed hpre
    generalize historyStep cx h a = h' at hstep hpre
    cases hstep with
    | rejected => exact hcont executed hpre
    | looked => exact hcont executed hpre
    | deleted => exact hcont executed hpre
    | added =>
      obtain ⟨⟨sid, first, last, hgroup, hfirst, hnumbers⟩, -⟩ := ha
      rcases List.prefix_concat_iff.mp hpre with rfl | hpre
      · exact (hcont h.accepted (List.prefix_refl _)).concat hgroup hfirst hnumbers
      · exact hcont executed hpre

/-! ## Members -/

/-- A member that has executed a prefix of the log; its `gtid_executed` is the set of the GTIDs in
it. -/
structure Member (log : List AcceptedEvent) where
  executed : List AcceptedEvent
  gtidExecuted : GtidSet
  start : executed <+: log
  normal : gtidExecuted.Normal
  contains_iff : ∀ gtid,
    gtidExecuted.Contains gtid ↔ ∃ x ∈ executed, gtid ∈ groupGtids x.data

/-- What MySQL answers to the query for `gtid_executed`. -/
def Member.answer {log : List AcceptedEvent} (m : Member log) : RetCode × Bytes :=
  (.ok, m.gtidExecuted.text)

/-- Without gaps, `gtid_executed` has one interval for each UUID. -/
theorem Member.oneInterval {log : List AcceptedEvent} (m : Member log)
    (hcont : Contiguous m.executed) : OneInterval m.gtidExecuted := by
  intro e he
  obtain ⟨k, hk⟩ := hcont e.sid
  have hivs : e.intervals = [(1, k)] := by
    apply intervals_eq_singleton (m.normal.nonempty e he) (fun iv hiv => (e.ordered iv hiv).1)
      (m.normal.apart e he)
    intro n
    rw [← m.normal.contains_iff he n, m.contains_iff]
    exact hk n
  have hlast : lastNumber e = k := by
    simp [lastNumber, hivs]
  rw [hlast]
  exact hivs

section Safety

variable {h : History} {segs : List Segment} (hg : Grouped cx h segs)

include hg

/-- An event that is not newer than an executed one is executed. -/
theorem Grouped.mem_executed_of_le (m : Member h.accepted) {x y : AcceptedEvent}
    (hx : x ∈ h.accepted) (hy : y ∈ m.executed)
    (hle : x.data.instanceId ≤ y.data.instanceId) : x ∈ m.executed := by
  obtain ⟨rest, hrest⟩ := m.start
  have hids := hg.inv.ids
  rw [← hrest] at hx hids
  rcases List.mem_append.mp hx with hx | hx
  · exact hx
  · have hlt := (List.pairwise_append.mp hids).2.2 y hy x hx
    exact absurd hle (Nat.not_le_of_lt hlt)

/-- An event that holds a GTID at or before a member's last one is executed by the member. -/
theorem Grouped.mem_executed (m : Member h.accepted) (hone : OneInterval m.gtidExecuted)
    {e : SidIntervals} (he : e ∈ m.gtidExecuted) {n : Nat} (hn : n ≤ lastNumber e)
    {x : AcceptedEvent} (hx : x ∈ h.accepted) (hgtid : genGTID e.uuid n ∈ groupGtids x.data) :
    x ∈ m.executed := by
  have hivs := hone e he
  have hlt := lastNumber_lt hivs
  have hordered := e.ordered (1, lastNumber e) (by rw [hivs]; exact List.mem_singleton_self _)
  have hcontains : m.gtidExecuted.Contains (genGTID e.uuid (lastNumber e)) :=
    (m.normal.contains_iff he _).mpr
      ⟨(1, lastNumber e), by rw [hivs]; exact List.mem_singleton_self _, hordered.1, Nat.le_refl _⟩
  obtain ⟨y, hy, hygtid⟩ := (m.contains_iff _).mp hcontains
  have hyacc : y ∈ h.accepted := m.start.subset hy
  obtain ⟨_, _, _, hgroup⟩ := hg.groups x hx
  obtain ⟨_, _, _, hgroup'⟩ := hg.groups y hyacc
  have hparse : parseGTID (genGTID e.uuid n) = (e.uuid, n) :=
    parseGTID_genUUID (Nat.lt_of_le_of_lt hn hlt)
  have hparse' : parseGTID (genGTID e.uuid (lastNumber e)) = (e.uuid, lastNumber e) :=
    parseGTID_genUUID hlt
  rcases hg.older_or hyacc hx with rfl | ⟨-, hold⟩ | ⟨hid, -⟩
  · exact hy
  · -- If the event were newer than `y`, its numbers would be larger than those of `y`.
    obtain ⟨huuid, -, -⟩ := hgroup.parse_of_mem hgtid
    obtain ⟨huuid', -, hle⟩ := hgroup'.parse_of_mem hygtid
    rw [hparse] at huuid
    rw [hparse'] at huuid' hle
    have hlt' := hold (huuid'.symm.trans huuid) _ hgtid
    rw [hparse] at hlt'
    omega
  · exact hg.mem_executed_of_le m hx hy (Nat.le_of_lt hid)

/-- Events in an older file are older. -/
theorem Grouped.lt_of_file_lt {x z : AcceptedEvent} (hx : x ∈ h.kept) (hz : z ∈ h.kept)
    (hlt : getFileInstanceID z.place.path < getFileInstanceID x.place.path) :
    z.data.instanceId < x.data.instanceId := by
  have hids : h.kept.Pairwise fun x y => x.data.instanceId < y.data.instanceId :=
    hg.inv.ids.filter _
  rw [← hg.inv.placed_eq_kept] at hx hz hids
  obtain ⟨gx, hgx, hfrom⟩ := List.mem_flatMap.mp (List.mem_filter.mp hx).1
  obtain ⟨gz, hgz, hfrom'⟩ := List.mem_flatMap.mp (List.mem_filter.mp hz).1
  rw [path_of_mem_placedFrom hfrom, path_of_mem_placedFrom hfrom', Segment.file, Segment.file,
    getFileInstanceID_genFileName (hg.inv.rep.files.small gx hgx),
    getFileInstanceID_genFileName (hg.inv.rep.files.small gz hgz)] at hlt
  -- The files are in the order of their numbers, and the events in the order of the files.
  obtain ⟨before, after, rfl⟩ := List.append_of_mem hgz
  have hsegs := hg.inv.rep.files.ids
  have hafter : gx ∈ after := by
    rcases List.mem_append.mp hgx with hmem | hmem
    · have := (List.pairwise_append.mp hsegs).2.2 gx hmem gz List.mem_cons_self
      omega
    · rcases List.mem_cons.mp hmem with rfl | hmem
      · omega
      · exact hmem
  have hcons : placedEvents cx (before ++ gz :: after) =
      placedEvents cx (before ++ [gz]) ++ placedEvents cx after := by
    rw [← placedEvents_append, List.append_assoc, List.singleton_append]
  rw [hcons] at hids
  apply (List.pairwise_append.mp hids).2.2 z _ x _
  · exact List.mem_filter.mpr ⟨List.mem_flatMap.mpr ⟨gz, by simp, hfrom'⟩, (List.mem_filter.mp hz).2⟩
  · exact List.mem_filter.mpr ⟨List.mem_flatMap.mpr ⟨gx, hafter, hfrom⟩, (List.mem_filter.mp hx).2⟩

end Safety

/-! ## The files of the directory -/

theorem nodup_keys (fs : FileSet) : fs.keys.Nodup :=
  (pairwise_keys fs).imp fun hlt heq => absurd (heq ▸ hlt) (Nat.lt_irrefl _)

/-- A listing without some files has the others. -/
theorem length_keys_le {fs fs' : FileSet} {files : List Bytes}
    (h : ∀ f ∈ fs.keys, f ∉ files → f ∈ fs'.keys) :
    fs.keys.length ≤ files.length + fs'.keys.length := by
  have hsub : fs.keys.Subperm (files ++ fs'.keys) := by
    apply List.subperm_of_subset (nodup_keys fs)
    intro f hf
    by_cases hmem : f ∈ files
    · exact List.mem_append_left _ hmem
    · exact List.mem_append_right _ (h f hf hmem)
  rw [← List.length_append]
  exact hsub.length_le

theorem Touched.find?_some {names : Bytes → Prop} {d d' : Disk} (h : Touched names d d') {f bs : Bytes}
    (hbs : d.find? f = some bs) : d'.find? f = some bs := by
  induction h with
  | refl => exact hbs
  | @create d' g _ _ ih =>
    by_cases hne : f = g
    · rw [hne] at ih ⊢
      rw [createFile_of_find? ih]
      exact ih
    · rw [find?_createFile_of_ne hne]
      exact ih

/-! ## The deletion -/

section CheckPoint

variable {h : History} {segs : List Segment} (hg : Grouped cx h segs)

include hg

/-- The file a checkpoint takes holds an event with one of the GTIDs. -/
theorem Grouped.maxCheckFile_cases {gtids : List Bytes} (hne : ∀ gtid ∈ gtids, gtid ≠ [])
    (maxFileName : Bytes) :
    (maxCheckFile cx gtids maxFileName h.store).1 = maxFileName ∨
      ∃ gtid ∈ gtids, ∃ x ∈ h.kept, gtid ∈ groupGtids x.data ∧
        (maxCheckFile cx gtids maxFileName h.store).1 = x.place.path := by
  -- The lookups change the directory, so the induction is over all stores with this history.
  have hloop : ∀ (gtids : List Bytes), (∀ gtid ∈ gtids, gtid ≠ []) → ∀ (h : History)
      (maxFileName : Bytes), Grouped cx h segs →
      (maxCheckFile cx gtids maxFileName h.store).1 = maxFileName ∨
        ∃ gtid ∈ gtids, ∃ x ∈ h.kept, gtid ∈ groupGtids x.data ∧
          (maxCheckFile cx gtids maxFileName h.store).1 = x.place.path := by
    intro gtids
    induction gtids with
    | nil =>
      intro _ h maxFileName _
      exact .inl rfl
    | cons gtid gtids ih =>
      intro hne h maxFileName hg
      have hl := @getLowerBoundGTIDInfo_looked cx h.store gtid
      have hg' := hg.looked
        (fun f hf => hg.inv.rep.fileName_of_known (hg.inv.known_of_found hf)) hl
      have hrest := fun name => ih (fun g hmem => hne g (List.mem_cons_of_mem _ hmem))
        { h with store := (getLowerBoundGTIDInfo cx h.store gtid).2.2 } name hg'
      have hlater : ∀ name, (∃ g ∈ gtids, ∃ x ∈ h.kept, g ∈ groupGtids x.data ∧
          (maxCheckFile cx gtids name (getLowerBoundGTIDInfo cx h.store gtid).2.2).1 =
            x.place.path) → ∃ g ∈ gtid :: gtids, ∃ x ∈ h.kept, g ∈ groupGtids x.data ∧
          (maxCheckFile cx gtids name (getLowerBoundGTIDInfo cx h.store gtid).2.2).1 =
            x.place.path := by
        rintro name ⟨g, hmem, hx⟩
        exact ⟨g, List.mem_cons_of_mem _ hmem, hx⟩
      simp only [maxCheckFile]
      split
      · rename_i hok
        obtain ⟨x, hx, hplace, hgtid⟩ := hg.confirmed_of_getLowerBoundGTIDInfo
          (hne gtid List.mem_cons_self) hok.1
        rcases hrest (getLowerBoundGTIDInfo cx h.store gtid).2.1.fileName with hsame | hfound
        · refine .inr ⟨gtid, List.mem_cons_self, x, hx, hgtid, hsame.trans ?_⟩
          rw [hplace]
          rfl
        · exact .inr (hlater _ hfound)
      · rcases hrest maxFileName with hsame | hfound
        · exact .inl hsame
        · exact .inr (hlater _ hfound)
  exact hloop gtids hne h maxFileName hg

/-- What a checkpoint deletes: files of the directory that are older than one with a GTID of the
list, and so few that two are left. -/
theorem Grouped.realMakeCheckPoint_files {gtids : List Bytes} (hne : ∀ gtid ∈ gtids, gtid ≠ [])
    (maxNum minTime : Nat) (fileTime : Bytes → Nat) :
    ∃ d files, Touched FileName h.store.disk d ∧ (∀ f bs, d.find? f = some bs → FileName f) ∧
      (realMakeCheckPoint cx gtids maxNum minTime fileTime h.store).1 = files ∧
      (realMakeCheckPoint cx gtids maxNum minTime fileTime h.store).2.disk =
        files.foldl SortedMap.erase d ∧
      (files = [] ∨ files.length + 2 ≤ (getAllFiles d).keys.length) ∧
      ∀ f ∈ files, ∃ gtid ∈ gtids, ∃ x ∈ h.kept, gtid ∈ groupGtids x.data ∧
        getFileInstanceID f < getFileInstanceID x.place.path := by
  obtain ⟨hlook, -⟩ := @maxCheckFile_spec cx gtids [] h.store
  have hnames : ∀ f, FoundIn h.store gtids f → FileName f := by
    rintro f ⟨gtid, -, hf⟩
    exact hg.inv.rep.fileName_of_known (hg.inv.known_of_found hf)
  have hrep := hg.inv.rep.looked hnames hlook
  have hcases := hg.maxCheckFile_cases hne []
  generalize hfound : maxCheckFile cx gtids [] h.store = found at hlook hrep hcases
  refine ⟨found.2.disk, _, hlook.disk.mono hnames, hrep.files.named, rfl, ?_, ?_⟩
  · simp only [realMakeCheckPoint, hfound]
    split
    · rfl
    · -- Opening a listed file to read its records changes nothing in the directory.
      simp only [delCheckPointFile, newManager, if_true]
      rw [foldl_delFile]
      intro f hf
      obtain ⟨hsub, -⟩ := delCheckPointFileList_spec (getAllFiles found.2.disk) found.1 maxNum minTime
        fileTime
      obtain ⟨bs, hbs⟩ := contains_of_mem_getAllFiles (hsub.subset hf)
      exact ⟨hrep.files.named f bs hbs, bs, hbs⟩
  · simp only [realMakeCheckPoint, hfound]
    split
    · exact ⟨.inl rfl, by simp⟩
    · rename_i hfile
      obtain ⟨-, hlt, hlen⟩ := delCheckPointFileList_spec (getAllFiles found.2.disk) found.1 maxNum
        minTime fileTime
      refine ⟨hlen, ?_⟩
      intro f hf
      rcases hcases with hnone | ⟨gtid, hgtid, x, hx, hmem, hpath⟩
      · exact absurd hnone hfile
      · refine ⟨gtid, hgtid, x, hx, hmem, ?_⟩
        rw [← hpath]
        exact hlt f hf

end CheckPoint

/-- The events in the files of a directory are kept events. -/
theorem HistoryInv.mem_kept_of_fileRecords {h : History} {segs : List Segment}
    (hinv : HistoryInv cx h segs) {f : Bytes} {r : EventData}
    (hr : r ∈ fileRecords cx h.store.disk f) (hgtid : r.gtid ≠ []) :
    ∃ x ∈ h.kept, x.data = r ∧ x.place.path = f := by
  obtain ⟨g, hg, rfl, hmem⟩ := hinv.rep.files.segment_of_mem hr
  obtain ⟨x, hx, hdata, hpath⟩ := @exists_placed cx segs g hg r hmem hgtid
  exact ⟨x, hinv.placed_eq_kept ▸ hx, hdata, hpath⟩

/-- The newest file of the directory is not older than the file of a kept event. -/
theorem HistoryInv.le_newest {h : History} {segs : List Segment} (hinv : HistoryInv cx h segs)
    {f : Bytes} (hf : (getAllFiles h.store.disk).keys.getLast? = some f) {x : AcceptedEvent}
    (hx : x ∈ h.kept) : getFileInstanceID x.place.path ≤ getFileInstanceID f := by
  rw [← hinv.placed_eq_kept] at hx
  obtain ⟨g, hg, _, _, -, hplace⟩ := placed_segment hx
  have hlisted : g.file ∈ (getAllFiles h.store.disk).keys :=
    (mem_getAllFiles hinv.rep.files.named).mpr ⟨_, hinv.rep.files.contents g hg⟩
  obtain ⟨bs, hbs⟩ := contains_of_mem_getAllFiles (List.mem_of_getLast? hf)
  obtain ⟨n, hn, rfl⟩ := hinv.rep.files.named f bs hbs
  have hrank : fileRank g.file ≤ fileRank (genFileName n) := by
    have hpair := pairwise_keys (getAllFiles h.store.disk)
    obtain ⟨init, hinit⟩ := List.getLast?_eq_some_iff.mp hf
    rw [hinit] at hpair hlisted
    rcases List.mem_append.mp hlisted with hmem | hmem
    · exact Nat.le_of_lt
        ((List.pairwise_append.mp hpair).2.2 _ hmem _ (List.mem_singleton_self _))
    · rw [List.mem_singleton.mp hmem]
  have hsmall := hinv.rep.files.small g hg
  rw [Segment.file, fileRank_genFileName hsmall, fileRank_genFileName hn] at hrank
  have hpath : x.place.path = genFileName g.id := by
    rw [hplace]
    rfl
  rw [hpath, getFileInstanceID_genFileName hsmall, getFileInstanceID_genFileName hn]
  exact Nat.le_of_succ_le_succ hrank

/-- In every run with groups in order and without gaps, and for all members that have each executed
a prefix of the accepted events: the files a checkpoint deletes hold only events that every member
has executed, two files are left if there were two, and the newest file is left. -/
theorem checkPoint_keeps_needed (cx : Codecs) (h : History)
    (hr : Transition.ReachableBy (historySystem cx) (ConsecutiveAdd cx) h)
    (members : List (Member h.accepted)) (maxNum minTime : Nat) (fileTime : Bytes → Nat) :
    ∃ gtids, getGlobalMySQLMaxGTIDList (members.map Member.answer) = (.ok, gtids) ∧
      (∀ f ∈ (realMakeCheckPoint cx gtids maxNum minTime fileTime h.store).1,
        ∀ r ∈ fileRecords cx h.store.disk f, r.gtid ≠ [] →
          ∀ m ∈ members, ∀ gtid ∈ groupGtids r, m.gtidExecuted.Contains gtid) ∧
      (2 ≤ (getAllFiles h.store.disk).keys.length →
        2 ≤ (getAllFiles
          (realMakeCheckPoint cx gtids maxNum minTime fileTime h.store).2.disk).keys.length) ∧
      ∀ f, (getAllFiles h.store.disk).keys.getLast? = some f →
        f ∈ (getAllFiles
          (realMakeCheckPoint cx gtids maxNum minTime fileTime h.store).2.disk).keys := by
  obtain ⟨segs, hg, hcont⟩ := contiguous_of_reachable hr
  have hone : ∀ m ∈ members, OneInterval m.gtidExecuted := fun m _ =>
    m.oneInterval (hcont m.executed m.start)
  obtain ⟨gtids, hgtids, hmin⟩ := getGlobalMySQLMaxGTIDList_text
    (members.map Member.gtidExecuted)
    (by
      intro S hS
      obtain ⟨m, -, rfl⟩ := List.mem_map.mp hS
      exact m.normal)
    (by
      intro S hS
      obtain ⟨m, hm, rfl⟩ := List.mem_map.mp hS
      exact hone m hm)
  rw [List.map_map] at hgtids
  have hne : ∀ gtid ∈ gtids, gtid ≠ [] := by
    intro gtid hgtid
    obtain ⟨uuid, n, rfl, -⟩ := hmin gtid hgtid
    simp [genGTID]
  obtain ⟨d, files, htouch, hnamed, hfiles, hdisk, hlen, hold⟩ :=
    hg.realMakeCheckPoint_files hne maxNum minTime fileTime
  refine ⟨gtids, hgtids, ?_⟩
  rw [hfiles, hdisk]
  have hafter : ∀ f, f ∈ (getAllFiles (files.foldl SortedMap.erase d)).keys ↔
      f ∉ files ∧ ∃ bs, d.find? f = some bs := by
    intro f
    rw [mem_getAllFiles]
    · rw [find?_foldl_erase]
      by_cases hf : f ∈ files
      · simp [hf]
      · simp [hf]
    · intro f bs hbs
      rw [find?_foldl_erase] at hbs
      split at hbs
      · cases hbs
      · exact hnamed f bs hbs
  have hbefore : ∀ f ∈ (getAllFiles h.store.disk).keys, ∃ bs, d.find? f = some bs := by
    intro f hf
    obtain ⟨bs, hbs⟩ := contains_of_mem_getAllFiles hf
    exact ⟨bs, htouch.find?_some hbs⟩
  refine ⟨?_, ?_, ?_⟩
  · intro f hf r hrec hgtid m hm gtid hmem
    obtain ⟨z, hz, rfl, rfl⟩ := hg.inv.mem_kept_of_fileRecords hrec hgtid
    obtain ⟨g, hg', x, hx, hxg, hlt⟩ := hold _ hf
    obtain ⟨uuid, n, rfl, hall⟩ := hmin g hg'
    obtain ⟨e, he, rfl, hn⟩ := hall m.gtidExecuted (List.mem_map_of_mem hm)
    -- The member has executed the event with the GTID, and with it every older one.
    have hexec := hg.mem_executed m (hone m hm) he hn (History.mem_kept.mp hx).1 hxg
    have hzexec := hg.mem_executed_of_le m (History.mem_kept.mp hz).1 hexec
      (Nat.le_of_lt (hg.lt_of_file_lt hx hz hlt))
    exact (m.contains_iff gtid).mpr ⟨z, hzexec, hmem⟩
  · intro htwo
    rcases hlen with rfl | hlen
    · have hle := @length_keys_le (getAllFiles h.store.disk)
        (getAllFiles ([].foldl SortedMap.erase d)) [] (fun f hf _ =>
          (hafter f).mpr ⟨List.not_mem_nil, hbefore f hf⟩)
      rw [List.length_nil, Nat.zero_add] at hle
      exact Nat.le_trans htwo hle
    · have hle := @length_keys_le (getAllFiles d) (getAllFiles (files.foldl SortedMap.erase d)) files
        (fun f hf hnot => (hafter f).mpr ⟨hnot, contains_of_mem_getAllFiles hf⟩)
      omega
  · intro f hf
    refine (hafter f).mpr ⟨?_, hbefore f (List.mem_of_getLast? hf)⟩
    intro hmem
    obtain ⟨_, _, x, hx, _, hlt⟩ := hold f hmem
    exact absurd (hg.inv.le_newest hf hx) (Nat.not_le_of_lt hlt)

/-! ### Three groups and a member that has executed two of them -/

/-- The transactions of the first groups. -/
theorem mem_groupGtids_sample {log : List AcceptedEvent} {k : Nat}
    (hdata : log.map AcceptedEvent.data = (List.range' 1 k).map sampleEvent)
    (hgtids : ∀ i ∈ List.range' 1 k, groupGtids (sampleEvent i) = [sampleGtid i]) (gtid : Bytes) :
    (∃ x ∈ log, gtid ∈ groupGtids x.data) ↔ ∃ n, 1 ≤ n ∧ n ≤ k ∧ gtid = sampleGtid n := by
  have hlog : (∃ x ∈ log, gtid ∈ groupGtids x.data) ↔
      ∃ r ∈ log.map AcceptedEvent.data, gtid ∈ groupGtids r := by
    simp only [List.mem_map, exists_exists_and_eq_and]
  rw [hlog, hdata]
  constructor
  · rintro ⟨r, hr, hgtid⟩
    obtain ⟨i, hi, rfl⟩ := List.mem_map.mp hr
    rw [hgtids i hi] at hgtid
    obtain ⟨hi₁, hi₂⟩ := List.mem_range'_1.mp hi
    exact ⟨i, hi₁, by omega, List.mem_singleton.mp hgtid⟩
  · rintro ⟨n, hn, hn', rfl⟩
    have hmem : n ∈ List.range' 1 k := List.mem_range'_1.mpr ⟨hn, by omega⟩
    refine ⟨sampleEvent n, List.mem_map_of_mem hmem, ?_⟩
    rw [hgtids n hmem]
    exact List.mem_singleton_self _

/-- The next group of one transaction may be added. -/
theorem consecutiveAdd_sample {h : History} {k : Nat}
    (hdata : h.accepted.map AcceptedEvent.data = (List.range' 1 k).map sampleEvent)
    (hgtids : ∀ i ∈ List.range' 1 (k + 1), groupGtids (sampleEvent i) = [sampleGtid i])
    (hparsed : (parseEventList (sampleEvent (k + 1)).data).1 = .ok) (hlt : k + 1 < 2 ^ 64)
    (hser : (wireCodecs.eventData.serialize (sampleEvent (k + 1))).isSome = true) :
    ConsecutiveAdd wireCodecs h (sampleAdd (k + 1)) := by
  have hgroup := isGroup_sampleEvent hlt hparsed
    (hgtids (k + 1) (List.mem_range'_1.mpr ⟨by omega, by omega⟩))
  refine ⟨⟨sampleSid, k + 1, k + 1, hgroup, by omega, ?_⟩, hlt, hser⟩
  intro n
  rw [mem_groupGtids_sample hdata]
  · constructor
    · rintro ⟨m, hm, hm', heq⟩
      obtain ⟨-, rfl⟩ := genGTID_inj (colon_not_mem_genUUID _) (colon_not_mem_genUUID _) heq
      omega
    · rintro ⟨hn, hn'⟩
      exact ⟨n, hn, by omega, rfl⟩
  · intro i hi
    obtain ⟨hi₁, hi₂⟩ := List.mem_range'_1.mp hi
    exact hgtids i (List.mem_range'_1.mpr ⟨hi₁, by omega⟩)

theorem threeHistory_consecutive :
    Transition.ReachableBy (historySystem wireCodecs) (ConsecutiveAdd wireCodecs) threeHistory := by
  have h₁ := Transition.ReachableBy.init.step
    (show ConsecutiveAdd wireCodecs (historySystem wireCodecs).init (sampleAdd (0 + 1)) from
      consecutiveAdd_sample rfl (by decide) (by decide) (by decide) (by decide)) rfl
  have h₂ := h₁.step (show ConsecutiveAdd wireCodecs _ (sampleAdd (1 + 1)) from
    consecutiveAdd_sample (by decide +kernel) (by decide) (by decide) (by decide) (by decide)) rfl
  simp only [threeHistory, List.foldl_cons, List.foldl_nil]
  exact h₂.step (show ConsecutiveAdd wireCodecs _ (sampleAdd (2 + 1)) from
    consecutiveAdd_sample (by decide +kernel) (by decide) (by decide) (by decide) (by decide)) rfl

/-- The member has executed the first two groups. -/
def sampleMember : Member threeHistory.accepted where
  executed := threeHistory.accepted.take 2
  gtidExecuted := [⟨sampleSid, [(1, 2)], rfl, by decide⟩]
  start := List.take_prefix _ _
  normal := by
    refine ⟨List.pairwise_singleton .., ?_, ?_⟩
    · intro e he
      rw [List.mem_singleton.mp he]
      exact List.cons_ne_nil _ _
    · intro e he
      rw [List.mem_singleton.mp he]
      exact List.pairwise_singleton ..
  contains_iff := by
    intro gtid
    rw [@mem_groupGtids_sample (threeHistory.accepted.take 2) 2 (by decide +kernel) (by decide)]
    constructor
    · rintro ⟨e, he, iv, hiv, n, hfirst, hlast, rfl⟩
      rw [List.mem_singleton.mp he] at hiv ⊢
      rw [List.mem_singleton.mp hiv] at hfirst hlast
      exact ⟨n, hfirst, hlast, rfl⟩
    · rintro ⟨n, hn, hn', rfl⟩
      exact ⟨_, List.mem_singleton_self _, (1, 2), List.mem_singleton_self _, n, hn, hn', rfl⟩

theorem checkPoint_keeps_needed_three :
    (realMakeCheckPoint wireCodecs (getGlobalMySQLMaxGTIDList [sampleMember.answer]).2 10 0
      (fun _ => 0) threeHistory.store).1 = [genFileName 0] ∧
      ∃ gtids, getGlobalMySQLMaxGTIDList [sampleMember.answer] = (.ok, gtids) ∧
        ∀ f ∈ (realMakeCheckPoint wireCodecs gtids 10 0 (fun _ => 0) threeHistory.store).1,
          ∀ r ∈ fileRecords wireCodecs threeHistory.store.disk f, r.gtid ≠ [] →
            ∀ gtid ∈ groupGtids r, sampleMember.gtidExecuted.Contains gtid := by
  refine ⟨by decide +kernel, ?_⟩
  obtain ⟨gtids, hgtids, hsafe, -, -⟩ := checkPoint_keeps_needed wireCodecs threeHistory
    threeHistory_consecutive [sampleMember] 10 0 (fun _ => 0)
  exact ⟨gtids, hgtids, fun f hf r hr hne => hsafe f hf r hr hne _ (List.mem_singleton_self _)⟩

end PhxSql.Store
