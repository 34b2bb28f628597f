import PhxSql.Monitor.EventMonitor
import PhxSql.Store.CheckPointTransfer

/-!
# Exported files do not change

A node that is far behind gets the event files of another node. The sender locks the checkpoint,
takes the list of the files without the newest one, and reads them while the node goes on: events
are added, files are switched, replicas look events up and the event monitor tries to make
checkpoints. Until the lock is released every file that was handed out stays as it was
(`exported_files_stable`).
-/

set_option autoImplicit false

namespace PhxSql.Monitor

open PhxSql.Proto PhxSql.Lib PhxSql.Gtid PhxSql.Store

variable {cx : Codecs}

/-! ## Files before the newest one -/

/-- The file is older than one of these segments. -/
def OlderFile (segs : List Segment) (f : Bytes) : Prop :=
  ∃ n, f = genFileName n ∧ ∃ g ∈ segs, n < g.id

theorem OlderFile.mono {segs segs' : List Segment} (h : ∀ g ∈ segs, ∃ g' ∈ segs', g.id ≤ g'.id)
    {f : Bytes} (hf : OlderFile segs f) : OlderFile segs' f := by
  obtain ⟨n, rfl, g, hg, hlt⟩ := hf
  obtain ⟨g', hg', hle⟩ := h g hg
  exact ⟨n, rfl, g', hg', Nat.lt_of_lt_of_le hlt hle⟩

/-- Adding an event changes no file before the newest one. -/
theorem find?_of_added {h : History} {segs segs' : List Segment} (hinv : HistoryInv cx h segs)
    {data : EventData} {s' : EventStorage} (hid : h.store.lastInstanceID < data.instanceId)
    (hframe : AddFrame h.store s' data.gtid data h.store.manager.writer)
    (hrep : StoreRep cx s' segs') (happ : Appended cx data segs segs') {f : Bytes}
    (hf : OlderFile segs f) : s'.disk.find? f = h.store.disk.find? f := by
  obtain ⟨n, rfl, g, hg, hlt⟩ := hf
  obtain ⟨last, hlast, -, hlastId⟩ := hinv.rep.getLast?
  have hle := hinv.rep.files.le_getLast? hlast hg
  by_cases hlisted : ∃ g' ∈ segs, genFileName n = g'.file
  · -- A listed file before the last one is the same segment afterwards.
    obtain ⟨g', hg', hfile⟩ := hlisted
    have hn : g'.id = n := (genFileName_inj.mp hfile).symm
    have hsame : g' ∈ segs' := by
      cases happ with
      | plain init g₀ =>
        rw [List.getLast?_concat] at hlast
        cases hlast
        rcases List.mem_append.mp hg' with hg' | hg'
        · exact List.mem_append_left _ hg'
        · rw [List.mem_singleton.mp hg'] at hn
          omega
      | switched init g₀ header _ =>
        rw [List.getLast?_concat] at hlast
        cases hlast
        rcases List.mem_append.mp hg' with hg' | hg'
        · simp [hg']
        · rw [List.mem_singleton.mp hg'] at hn
          omega
    rw [hfile, hinv.rep.files.contents g' hg', hrep.files.contents g' hsame]
  · apply hframe.disk
    rw [hrep.files.keys]
    intro hmem
    obtain ⟨g', hg', hfile⟩ := List.mem_map.mp hmem
    rcases happ.mem_ids hg' with ⟨g'', hg'', hid'⟩ | hid'
    · exact hlisted ⟨g'', hg'', by rw [Segment.file, ← hid', ← Segment.file, hfile]⟩
    · have hn : g'.id = n := genFileName_inj.mp hfile
      omega

/-- The files that are handed out are older than the one that is written to. -/
theorem older_of_sent {h : History} {segs : List Segment} (hd : DonorInv cx h segs)
    {f bs : Bytes} (hf : (sentFiles h.store.disk).find? f = some bs) :
    h.store.disk.find? f = some bs ∧ OlderFile segs f := by
  rw [find?_sentFiles] at hf
  split at hf
  · rename_i hmem
    refine ⟨hf, ?_⟩
    obtain ⟨init, g, rfl, -, -⟩ := hd.inv.rep.writer
    have hpair := pairwise_keys (getAllFiles h.store.disk)
    rw [hd.keys_eq] at hpair
    have hlt := (List.pairwise_append.mp hpair).2.2 f hmem g.file (List.mem_singleton_self _)
    obtain ⟨n, hn, rfl⟩ := hd.inv.rep.files.named f bs hf
    have hg : g ∈ init ++ [g] := by simp
    rw [fileRank_genFileName hn, fileRank_file hd.inv.rep.files hg] at hlt
    exact ⟨n, rfl, g, hg, by omega⟩
  · cases hf

/-! ## Runs -/

variable (cx) in
/-- The events that are added are as a donor needs them; nothing is asked of the answers. -/
def DonorAllowed (s : CheckPointNode) : NodeAction → Prop
  | .store a => DonorStep cx s.history a
  | _ => True

/-- The monitor has set the status. -/
def MonitorPhase.isRunning : MonitorPhase → Bool
  | .making .. => true
  | .made .. => true
  | _ => false

/-- The exported files are in the directory as they were, and not open for writing. -/
def Unchanged (exported : Option Disk) (h : History) (segs : List Segment) : Prop :=
  ∀ sent, exported = some sent → ∀ f bs, sent.find? f = some bs →
    h.store.disk.find? f = some bs ∧ OlderFile segs f

variable (cx) in
structure ExportInv (s : CheckPointNode) : Prop where
  files : ∃ segs, DonorInv cx s.history segs ∧ Unchanged s.exported s.history segs
  locked : s.exported.isSome = true → s.manager.runStatus = .locking
  running : s.phase.isRunning = true → s.manager.runStatus = .running

/-- Lookups leave the exported files. -/
theorem Unchanged.looked {exported : Option Disk} {h : History} {segs : List Segment}
    (hu : Unchanged exported h segs) (hd : DonorInv cx h segs) (a : StoreAction) {s' : EventStorage}
    (hl : Looked (a.opens h.store) h.store s') :
    ∃ segs', DonorInv cx { h with store := s' } segs' ∧
      Unchanged exported { h with store := s' } segs' := by
  refine ⟨segs, ⟨hd.inv.looked (fun f hf => hd.inv.fileName_of_opens hf) hl, hd.shape, ?_⟩, ?_⟩
  · intro f bs hf
    exact hd.looked hl hf
  · intro sent hsent f bs hf
    obtain ⟨hbs, hold⟩ := hu sent hsent f bs hf
    exact ⟨hl.disk.find?_some hbs, hold⟩

/-- Additions leave the exported files, also when they start a new one. -/
theorem Unchanged.addEvent {exported : Option Disk} {h : History} {segs : List Segment}
    (hu : Unchanged exported h segs) (hd : DonorInv cx h segs) {maxSize : Nat} {master : MasterInfo}
    {data : EventData} (hok : DonorStep cx h (.addEvent maxSize master data)) :
    ∃ segs', DonorInv cx (historyStep cx h (.addEvent maxSize master data)) segs' ∧
      Unchanged exported (historyStep cx h (.addEvent maxSize master data)) segs' := by
  by_cases hid : data.instanceId ≤ h.store.lastInstanceID
  · have hsame : historyStep cx h (.addEvent maxSize master data) = h := by
      simp only [historyStep, addEvent_of_le hid]
      rfl
    rw [hsame]
    exact ⟨segs, hd, hu⟩
  · obtain ⟨-, hframe, segs', hrep, happ⟩ := addEvent_rep hd.inv.rep (Nat.lt_of_not_le hid)
      hok.1.2.1 maxSize master data.gtid
    obtain ⟨segs'', hd'⟩ := hd.step hok
    obtain rfl : segs'' = segs' := hd'.inv.rep.files.unique hrep.files
    refine ⟨segs'', hd', ?_⟩
    intro sent hsent f bs hf
    obtain ⟨hbs, hold⟩ := hu sent hsent f bs hf
    refine ⟨?_, hold.mono happ.ids_le⟩
    rw [← hbs]
    exact find?_of_added hd.inv (Nat.lt_of_not_le hid) hframe hrep happ hold

theorem exportInv_init : ExportInv cx {} where
  files := ⟨_, donorInv_empty, fun sent hsent => by cases hsent⟩
  locked := fun h => by cases h
  running := fun h => by cases h

/-- The status as a test and set leaves it. -/
theorem testAndSet_runStatus (oldStatus status : RunningStatus) (m : CheckPointManager) :
    (m.runStatus = oldStatus ∧ testAndSet oldStatus status m = (0, { m with runStatus := status })) ∨
      (m.runStatus ≠ oldStatus ∧ testAndSet oldStatus status m = (1, m)) := by
  unfold testAndSet
  split
  · rename_i hne
    exact .inr ⟨hne, rfl⟩
  · rename_i heq
    exact .inl ⟨not_not.mp heq, rfl⟩

/-- While the monitor has set the status, nothing is exported. -/
theorem ExportInv.none_of_running {s : CheckPointNode} (hinv : ExportInv cx s)
    (h : s.phase.isRunning = true) : s.exported = none := by
  rw [← Option.not_isSome_iff_eq_none]
  intro hsome
  have hstatus := (hinv.locked hsome).symm.trans (hinv.running h)
  cases hstatus

theorem ExportInv.beginCheckPoint {s : CheckPointNode} (hinv : ExportInv cx s) (gtids : List Bytes)
    (next : Option (List Bytes)) : ExportInv cx (beginCheckPoint s gtids next) := by
  unfold Monitor.beginCheckPoint
  rcases testAndSet_runStatus .none .running s.manager with ⟨hstatus, hset⟩ | ⟨-, hset⟩
  · rw [hset]
    refine ⟨hinv.files, ?_, fun _ => rfl⟩
    intro hsome
    have := (hinv.locked hsome).symm.trans hstatus
    cases this
  · rw [hset]
    exact ⟨hinv.files, hinv.locked, fun h => by cases h⟩

theorem ExportInv.checkRunningStatus {s : CheckPointNode} (hinv : ExportInv cx s) (isMaster : Bool)
    (gtids : List Bytes) : ExportInv cx (checkRunningStatus s isMaster gtids) := by
  unfold Monitor.checkRunningStatus
  split
  · split
    · exact ⟨hinv.files, hinv.locked, fun h => by cases h⟩
    · exact hinv.beginCheckPoint _ _
  · exact hinv.beginCheckPoint _ _

/-- A checkpoint is made only while nothing is exported. -/
theorem ExportInv.make {s : CheckPointNode} (hinv : ExportInv cx s) {gtids : List Bytes}
    {next : Option (List Bytes)} (hphase : s.phase = .making gtids next) (r : CheckPointReadings) :
    ExportInv cx { s with
      history := (makeCheckPoint cx gtids r s.history s.manager).1
      manager := (makeCheckPoint cx gtids r s.history s.manager).2
      phase := .made next } := by
  have hrunning : s.phase.isRunning = true := by rw [hphase]; rfl
  have hnone := hinv.none_of_running hrunning
  obtain ⟨segs, hd, -⟩ := hinv.files
  have hmade : ∃ segs', DonorInv cx (makeCheckPoint cx gtids r s.history s.manager).1 segs' := by
    unfold makeCheckPoint
    dsimp only
    split
    · split
      · exact hd.step (show DonorStep cx s.history (.makeCheckPoint ..) from ⟨trivial, trivial⟩)
      · exact ⟨segs, hd⟩
    · exact ⟨segs, hd⟩
  have hstatus : (makeCheckPoint cx gtids r s.history s.manager).2.runStatus =
      s.manager.runStatus := by
    unfold makeCheckPoint
    dsimp only
    split
    · rfl
    · rfl
  obtain ⟨segs', hd'⟩ := hmade
  refine ⟨⟨segs', hd', ?_⟩, ?_, ?_⟩
  · intro sent hsent
    rw [hnone] at hsent
    cases hsent
  · intro hsome
    rw [hnone] at hsome
    cases hsome
  · intro _
    exact hstatus.trans (hinv.running hrunning)

/-- Every step keeps the invariant. -/
theorem ExportInv.step {g : GroupConfig} {s s' : CheckPointNode} {a : NodeAction}
    (hinv : ExportInv cx s) (hok : DonorAllowed cx s a) (hstep : nodeStep cx g s a = some s') :
    ExportInv cx s' := by
  obtain ⟨segs, hd, hu⟩ := hinv.files
  cases a with
  | store a =>
    cases a with
    | addEvent maxSize master data =>
      cases hstep
      exact { hinv with files := hu.addEvent hd hok }
    | makeCheckPoint => cases hstep
    | getGTIDInfo gtid =>
      cases hstep
      refine { hinv with files := hu.looked hd (.getGTIDInfo gtid) ?_ }
      exact (getLowerBoundGTIDInfo_looked s.history.store gtid).mono fun f hf =>
        .inl (foundIn_head [] hf)
    | getLastGtid gtids =>
      cases hstep
      refine { hinv with files := hu.looked hd (.getLastGtid gtids) ?_ }
      exact (getLastGtid_looked s.history.store gtids).mono fun f hf => .inl hf
    | reSet gtid =>
      cases hstep
      refine { hinv with files := hu.looked hd (.reSet gtid) ?_ }
      refine (reSet_looked s.history.store gtid).mono ?_
      rintro f (hf | hf)
      · exact .inl (foundIn_head [] hf)
      · exact .inr hf
  | execute m =>
    simp only [nodeStep, Option.ite_none_right_eq_some, Option.some.injEq] at hstep
    obtain ⟨-, rfl⟩ := hstep
    exact { hinv with }
  | wake =>
    simp only [nodeStep] at hstep
    split at hstep
    · cases hstep
      exact ⟨hinv.files, hinv.locked, fun h => by cases h⟩
    · cases hstep
  | answer a =>
    simp only [nodeStep] at hstep
    split at hstep
    · split at hstep
      · cases hstep
        exact ⟨hinv.files, hinv.locked, fun h => by cases h⟩
      · cases hstep
        exact ⟨hinv.files, hinv.locked, fun h => by cases h⟩
    · cases hstep
  | answered isMaster =>
    simp only [nodeStep] at hstep
    split at hstep
    · split at hstep
      · cases hstep
        exact ⟨hinv.files, hinv.locked, fun h => by cases h⟩
      · cases hstep
        exact hinv.checkRunningStatus isMaster _
    · cases hstep
  | make r =>
    simp only [nodeStep] at hstep
    split at hstep
    · rename_i gtids next hphase
      cases hstep
      exact hinv.make hphase r
    · cases hstep
  | done =>
    simp only [nodeStep] at hstep
    split at hstep
    · rename_i next hphase
      cases hstep
      have hnone := hinv.none_of_running (by rw [hphase]; rfl)
      refine ⟨hinv.files, ?_, fun h => by cases h⟩
      intro hsome
      rw [hnone] at hsome
      cases hsome
    · cases hstep
  | lock =>
    cases hstep
    rcases testAndSet_runStatus .none .locking s.manager with ⟨hstatus, hset⟩ | ⟨-, hset⟩
    · rw [lockCheckPoint, hset]
      refine ⟨hinv.files, fun _ => rfl, ?_⟩
      intro hrunning
      have := (hinv.running hrunning).symm.trans hstatus
      cases this
    · rw [lockCheckPoint, hset]
      exact { hinv with }
  | getFile =>
    simp only [nodeStep, Option.ite_none_right_eq_some, Option.some.injEq] at hstep
    obtain ⟨hstatus, rfl⟩ := hstep
    refine ⟨⟨segs, hd, ?_⟩, fun _ => hstatus, hinv.running⟩
    rintro sent ⟨⟩ f bs hf
    exact older_of_sent hd hf
  | unLock =>
    cases hstep
    have hfiles : ∃ segs, DonorInv cx s.history segs ∧ Unchanged none s.history segs :=
      ⟨segs, hd, fun sent hsent => by cases hsent⟩
    rcases testAndSet_runStatus .locking .none s.manager with ⟨hstatus, hset⟩ | ⟨-, hset⟩
    · rw [unLockCheckPoint, hset]
      refine ⟨hfiles, (fun h => by cases h), ?_⟩
      intro hrunning
      have := (hinv.running hrunning).symm.trans hstatus
      cases this
    · rw [unLockCheckPoint, hset]
      exact ⟨hfiles, (fun h => by cases h), hinv.running⟩

/-- In every run: from the moment the list of files is handed out until the lock is released, every
file of the list is in the directory with what was in it then. -/
theorem exported_files_stable (cx : Codecs) (g : GroupConfig) (s : CheckPointNode)
    (hr : Transition.ReachableBy (nodeSystem cx g) (DonorAllowed cx) s) (sent : Disk)
    (hsent : s.exported = some sent) :
    s.manager.runStatus = .locking ∧
      ∀ f bs, sent.find? f = some bs →
        s.history.store.disk.find? f = some bs ∧ f ≠ s.history.store.manager.writer.path := by
  have hinv : ExportInv cx s :=
    hr.invariant exportInv_init fun _ _ _ hinv hok hstep => hinv.step hok hstep
  refine ⟨hinv.locked (by rw [hsent]; rfl), ?_⟩
  intro f bs hf
  obtain ⟨segs, hd, hu⟩ := hinv.files
  obtain ⟨hbs, n, rfl, g', hg', hlt⟩ := hu sent hsent f bs hf
  refine ⟨hbs, ?_⟩
  intro heq
  obtain ⟨last, hlast, hw, -⟩ := hd.inv.rep.getLast?
  rw [hw] at heq
  have hn : n = last.id := genFileName_inj.mp heq
  have hle := hd.inv.rep.files.le_getLast? hlast hg'
  omega

/-! ### An export during which the node goes on -/

/-- The side condition in a form that can be evaluated. -/
def donorAllowed (s : CheckPointNode) : NodeAction → Bool
  | .store (.addEvent _ master data) =>
    let made := getFileHeader wireCodecs master
      (afterPut wireCodecs none s.history.store data.gtid data)
    decide ((data.gtid ≠ [] ∧ data.instanceId < 2 ^ 64 ∧
        (wireCodecs.eventData.serialize data).isSome = true) ∧
      master.port.isSome = true ∧ 0 < master.version ∧
        ((wireCodecs.eventData.serialize made.2.1).isSome = true ∧
          made.2.1.data ≠ [] ∧ made.2.1.masterData ≠ []))
  | _ => true

theorem allowed_of_donorAllowed (s : CheckPointNode) (a : NodeAction)
    (h : donorAllowed s a = true) : DonorAllowed wireCodecs s a := by
  cases a with
  | store a =>
    cases a with
    | addEvent maxSize master data =>
      obtain ⟨hadd, hport, hversion, hheader⟩ := of_decide_eq_true h
      exact ⟨hadd, hport, hversion, fun _ => hheader⟩
    | _ => exact ⟨trivial, trivial⟩
  | _ => trivial

/-- The files are handed out after two events. During the export a third event is added, which
starts a new file, an event is looked up, and a round of the monitor finds the lock. -/
def fileExportRun : List NodeAction :=
  [.store (donorAdd 1), .store (donorAdd 2), .lock, .getFile,
    .store (donorAdd 3), .store (.getGTIDInfo (sampleGtid 1)), .wake,
    .answer (.ok, firstTwoCommand.set.text), .answered false]

def exportingNode : Option CheckPointNode :=
  Transition.checkedRun
    (nodeSystem wireCodecs { log := [], members := [0], self := 0, force := false })
    (fun s a => donorAllowed s a = true) {} fileExportRun

theorem exported_files_stable_running :
    ∃ s sent, exportingNode = some s ∧ s.exported = some sent ∧
      s.history.accepted.length = 3 ∧ sent.keys = [genFileName 0, genFileName 1] ∧
      ∀ f bs, sent.find? f = some bs → s.history.store.disk.find? f = some bs := by
  have hrun : exportingNode.map (fun s =>
      (s.history.accepted.length, s.exported.map fun sent => sent.keys)) =
        some (3, some [genFileName 0, genFileName 1]) := by
    decide +kernel
  obtain ⟨s, hs, hvalues⟩ := Option.map_eq_some_iff.mp hrun
  obtain ⟨haccepted, hexported⟩ := Prod.mk.inj hvalues
  obtain ⟨sent, hsent, hkeys⟩ := Option.map_eq_some_iff.mp hexported
  have hreach := (Transition.ReachableBy.checkedRun fileExportRun .init hs).mono allowed_of_donorAllowed
  refine ⟨s, sent, hs, hsent, haccepted, hkeys, ?_⟩
  intro f bs hf
  exact ((exported_files_stable wireCodecs _ s hreach sent hsent).2 f bs hf).1

end PhxSql.Monitor
