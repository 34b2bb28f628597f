import PhxSql.Store.Reading
import PhxSql.Store.Representation

/-!
# The sign-up of an empty replica

A replica without GTIDs is accepted if the oldest file of the directory is the first file,
`EVENTDATA-0`. That file can be there although it was deleted: the UUID table keeps the place of the
last event of a UUID, and a lookup of that event opens the file, which creates it. If no lookup goes
into the first file after it was deleted, an accepted empty replica gets the whole history
(`emptySignUp_complete`); with such a lookup it does not (`emptySignUp_loses_first`).
-/

set_option autoImplicit false

namespace PhxSql.Store

open PhxSql.Proto PhxSql.Lib PhxSql.Gtid

variable (cx : Codecs)

/-- No lookup of the operation goes into the first file when it is not there. -/
def KeepsFirstFile (h : History) (a : StoreAction) : Prop :=
  Addable cx a ∧ (FoundIn h.store a.lookups (genFileName 0) →
    ∃ bs, h.store.disk.find? (genFileName 0) = some bs)

variable {cx}

/-- If the first file is in the directory, it has not been deleted. -/
def FirstFileInv (h : History) : Prop :=
  ∀ bs, h.store.disk.find? (genFileName 0) = some bs → genFileName 0 ∉ h.deleted

/-- A file of the list is in the directory. -/
theorem FilesRep.find?_of_mem_keys {d : Disk} {fs : FileSet} {segs : List Segment}
    (h : FilesRep cx d fs segs) {f : Bytes} (hf : f ∈ fs.keys) : ∃ bs, d.find? f = some bs := by
  rw [h.keys] at hf
  obtain ⟨g, hg, rfl⟩ := List.mem_map.mp hf
  exact ⟨_, h.contents g hg⟩

/-- Under the condition an operation that opens the first file finds it. -/
theorem HistoryInv.find?_of_opens {h : History} {segs : List Segment} (hinv : HistoryInv cx h segs)
    {a : StoreAction} (hok : KeepsFirstFile cx h a) (hopen : a.opens h.store (genFileName 0)) :
    ∃ bs, h.store.disk.find? (genFileName 0) = some bs := by
  rcases hopen with hfound | hlisted
  · exact hok.2 hfound
  · exact hinv.rep.files.find?_of_mem_keys hlisted

theorem FirstFileInv.stepped {h h' : History} {segs segs' : List Segment} (hfirst : FirstFileInv h)
    (hinv : HistoryInv cx h segs) {a : StoreAction} (hok : KeepsFirstFile cx h a)
    (hs : Stepped cx h segs a h' segs') : FirstFileInv h' := by
  have hinv' := hinv.stepped hok.1 hs
  intro bs hbs
  cases hs with
  | rejected => exact hfirst bs hbs
  | looked hl =>
    rcases hl.disk.find? (genFileName 0) with hsame | hopen
    · exact hfirst bs (hsame.symm.trans hbs)
    · obtain ⟨bs', hbs'⟩ := hinv.find?_of_opens hok hopen
      exact hfirst bs' hbs'
  | deleted hd =>
    intro hmem
    rcases List.mem_append.mp hmem with hmem | hmem
    · -- The file was deleted before, so it must have been created by this operation.
      rcases hd.stays (genFileName 0) with hsame | hgone | hopen
      · exact hfirst bs (hsame.symm.trans hbs) hmem
      · rw [hd.gone _ hgone] at hbs
        cases hbs
      · obtain ⟨bs', hbs'⟩ := hinv.find?_of_opens hok hopen
        exact hfirst bs' hbs' hmem
    · rw [hd.gone _ hmem] at hbs
      cases hbs
  | added hid hframe hrep happ =>
    by_cases hlisted : genFileName 0 ∈ segs'.map Segment.file
    · obtain ⟨g, hg, hfile⟩ := List.mem_map.mp hlisted
      rw [← hfile]
      exact hinv'.listed g hg
    · have hsame := hframe.disk (genFileName 0) (by rw [hrep.files.keys]; exact hlisted)
      exact hfirst bs (hsame.symm.trans hbs)

theorem firstFileInv_of_reachable {h : History}
    (hr : Transition.ReachableBy (historySystem cx) (KeepsFirstFile cx) h) :
    ∃ segs, HistoryInv cx h segs ∧ FirstFileInv h := by
  apply historyInv_of_reachable (fun _ _ ha => ha.1) _ _ hr
  · intro bs _ hmem
    cases hmem
  · intro h h' segs segs' a hinv hfirst ha hs
    exact hfirst.stepped hinv ha hs

/-! ## What an accepted empty replica gets -/

/-- An empty sign-up is accepted only if the first file is in the directory. -/
theorem find?_of_getLastGtid_nil {s : EventStorage} (h : (getLastGtid cx s []).1 = .ok) :
    (getLastGtid cx s []).2.2 = s ∧ ∃ bs, s.disk.find? (genFileName 0) = some bs := by
  simp only [getLastGtid, List.isEmpty_nil, if_true, checkGtidInData_nil] at h ⊢
  refine ⟨trivial, ?_⟩
  by_cases hhead : (getAllFiles s.disk).keys.head? = some (genFileName 0)
  · exact contains_of_mem_getAllFiles (List.mem_of_head? hhead)
  · rw [if_neg hhead] at h
    split at h
    · cases h
    · cases h

/-- If the first segment is that of the first file, `ReSet` without a GTID goes to its start. -/
theorem reSet_nil {s : EventStorage} {g : Segment} {after : List Segment}
    (h : StoreRep cx s (g :: after)) :
    reSet s [] = (.ok, s.withReader { path := g.file }) := by
  have hhead : s.manager.fileList.keys.head? = some g.file := by
    rw [h.files.keys]
    rfl
  have hopen : createFile s.disk g.file = s.disk :=
    createFile_of_find? (h.files.contents g List.mem_cons_self)
  simp [reSet, openOldestFile, hhead, reOpenRead, hopen, EventStorage.withReader]

/-- The segment with the smallest possible id is the first one. -/
theorem FilesRep.eq_cons_of_id_zero {d : Disk} {fs : FileSet} {segs : List Segment}
    (h : FilesRep cx d fs segs) {g : Segment} (hg : g ∈ segs) (hid : g.id = 0) :
    ∃ after, segs = g :: after := by
  cases segs with
  | nil => cases hg
  | cons g' after =>
    rcases List.mem_cons.mp hg with rfl | hg
    · exact ⟨after, rfl⟩
    · have hlt := (List.pairwise_cons.mp h.ids).1 g hg
      omega

/-- In every run without lookups into a deleted first file: if an empty sign-up is accepted, the
first event ever accepted is stored, and repositioning without a GTID and reading returns it first.
-/
theorem emptySignUp_complete (cx : Codecs) (h : History)
    (hr : Transition.ReachableBy (historySystem cx) (KeepsFirstFile cx) h)
    (hok : (getLastGtid cx h.store []).1 = .ok) (x : AcceptedEvent)
    (hx : h.accepted.head? = some x) :
    x.data ∈ storedEvents cx h.store ∧
      (reSet (getLastGtid cx h.store []).2.2 []).1 = .ok ∧
      (getEvent cx (reSet (getLastGtid cx h.store []).2.2 []).2).1 = .ok ∧
      (getEvent cx (reSet (getLastGtid cx h.store []).2.2 []).2).2.1 = x.data := by
  obtain ⟨segs, hinv, hfirst⟩ := firstFileInv_of_reachable hr
  obtain ⟨hstore, bs, hbs⟩ := find?_of_getLastGtid_nil hok
  obtain ⟨rest, haccepted⟩ := List.head?_eq_some_iff.mp hx
  have hpath := hinv.first x hx
  -- The first event is kept, so its file, the first one, is listed.
  have hkept : h.kept = x :: rest.filter fun y => y.place.path ∉ h.deleted := by
    have hnot : x.place.path ∉ h.deleted := hpath ▸ hfirst bs hbs
    rw [History.kept, haccepted, List.filter_cons_of_pos (by simpa using hnot)]
  have hplaced : x ∈ placedEvents cx segs := by
    rw [hinv.placed_eq_kept, hkept]
    exact List.mem_cons_self
  obtain ⟨g, hg, pre, post, hrecords, hplace⟩ := placed_segment hplaced
  have hid : g.id = 0 := by
    apply genFileName_inj.mp
    rw [← hpath, hplace]
    rfl
  obtain ⟨after, rfl⟩ := hinv.rep.files.eq_cons_of_id_zero hg hid
  have hevents : eventsOf (g :: after) = h.kept.map AcceptedEvent.data := by
    rw [← map_data_placedEvents, hinv.placed_eq_kept]
  rw [hstore, reSet_nil hinv.rep]
  refine ⟨?_, rfl, ?_⟩
  · rw [hinv.rep.files.storedEvents_eq, hevents, hkept]
    exact List.mem_cons_self
  · have hread : getEvents cx 1 (h.store.withReader { path := g.file }) = [x.data] := by
      rw [getEvents_eq 1 (h.store.withReader { path := g.file }) _ hinv.rep.files
        (@atRecords_start cx (g :: after) [] after g rfl)]
      have hfilter : ((g :: after).flatMap Segment.records).filter (fun r => decide (r.gtid ≠ [])) =
          eventsOf (g :: after) := rfl
      rw [hfilter, hevents, hkept]
      rfl
    simp only [getEvents] at hread
    split at hread
    · rename_i hret
      exact ⟨hret, (List.cons.inj hread).1⟩
    · cases hread

/-! ### The condition is needed -/

/-- The first event, of another server than the ones after it. -/
def otherSid : Bytes := List.replicate 16 187

def otherEvent : EventData :=
  { gtid := genGTID (genUUID otherSid) 1, data := gtidEvent otherSid 1, checksum := 1,
    instanceId := 1 }

/-- The members have executed the first event and the second one. Files up to time 0 may go; the
first file has the given time. -/
def otherDelete (firstFileTime : Nat) : StoreAction :=
  .makeCheckPoint [otherEvent.gtid, sampleGtid 2] 10 0
    fun f => if f = genFileName 0 then firstFileTime else 0

/-- Three events in three files. The first checkpoint deletes the first file. The second one looks
up the first event, finds its place in the UUID table, and creates the file again. -/
def staleRun : List StoreAction :=
  [.addEvent 0 {} otherEvent, sampleAdd 2, sampleAdd 3, otherDelete 0, otherDelete 1]

def staleHistory : History :=
  staleRun.foldl (historyStep wireCodecs) {}

/-- An empty sign-up is accepted although the first event is not stored. -/
theorem emptySignUp_loses_first :
    ∃ h, Transition.ReachableBy (historySystem wireCodecs) (fun _ a => Addable wireCodecs a) h ∧
      (getLastGtid wireCodecs h.store []).1 = .ok ∧
      ∃ x, h.accepted.head? = some x ∧ x.data ∉ storedEvents wireCodecs h.store := by
  refine ⟨staleHistory, ?_, by decide +kernel,
    { place := { path := genFileName 0 }, data := otherEvent }, by decide +kernel,
    by decide +kernel⟩
  have hadd : ∀ data : EventData, data.gtid ≠ [] → data.instanceId < 2 ^ 64 →
      (wireCodecs.eventData.serialize data).isSome = true →
      Addable wireCodecs (.addEvent 0 {} data) := fun data h₁ h₂ h₃ => ⟨h₁, h₂, h₃⟩
  have h₁ : Transition.ReachableBy (historySystem wireCodecs) (fun _ a => Addable wireCodecs a) _ :=
    .step .init (hadd otherEvent (by decide) (by decide) (by decide)) rfl
  have h₂ := h₁.step (hadd (sampleEvent 2) (by decide) (by decide) (by decide)) rfl
  have h₃ := h₂.step (hadd (sampleEvent 3) (by decide) (by decide) (by decide)) rfl
  have h₄ := h₃.step (show Addable wireCodecs (otherDelete 0) from trivial) rfl
  exact h₄.step (show Addable wireCodecs (otherDelete 1) from trivial) rfl

/-! ### The condition can be met -/

/-- A run with an event, a file switch and a sign-up. -/
def keepRun : List StoreAction :=
  [sampleAdd 1, sampleAdd 2, .getLastGtid [sampleGtid 1]]

def keepHistory : History :=
  keepRun.foldl (historyStep wireCodecs) {}

theorem keepRun_reachable :
    Transition.ReachableBy (historySystem wireCodecs) (KeepsFirstFile wireCodecs) keepHistory := by
  have hadd : ∀ n h, (sampleEvent n).gtid ≠ [] → (sampleEvent n).instanceId < 2 ^ 64 →
      (wireCodecs.eventData.serialize (sampleEvent n)).isSome = true →
      KeepsFirstFile wireCodecs h (sampleAdd n) := by
    intro n h h₁ h₂ h₃
    refine ⟨⟨h₁, h₂, h₃⟩, ?_⟩
    rintro ⟨gtid, hmem, -⟩
    cases hmem
  have h₁ : Transition.ReachableBy (historySystem wireCodecs) (KeepsFirstFile wireCodecs) _ :=
    .step .init (hadd 1 _ (by decide) (by decide) (by decide)) rfl
  have h₂ := h₁.step (hadd 2 _ (by decide) (by decide) (by decide)) rfl
  simp only [keepHistory, keepRun, List.foldl_cons, List.foldl_nil]
  exact h₂.step (show KeepsFirstFile wireCodecs _ (.getLastGtid [sampleGtid 1]) from
    ⟨trivial, fun _ => Option.isSome_iff_exists.mp (by decide +kernel)⟩) rfl

theorem emptySignUp_complete_keepRun :
    (getLastGtid wireCodecs keepHistory.store []).1 = .ok ∧
      (getEvent wireCodecs
        (reSet (getLastGtid wireCodecs keepHistory.store []).2.2 []).2).2.1 = sampleEvent 1 := by
  have hok : (getLastGtid wireCodecs keepHistory.store []).1 = .ok := by decide +kernel
  refine ⟨hok, ?_⟩
  exact (emptySignUp_complete wireCodecs keepHistory keepRun_reachable hok
    { place := { path := genFileName 0 }, data := sampleEvent 1 } (by decide +kernel)).2.2.2

end PhxSql.Store
