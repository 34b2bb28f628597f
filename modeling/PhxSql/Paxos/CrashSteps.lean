import PhxSql.Paxos.CrashInvariant

/-!
# Executing instances and crashing

Each step of a run with crashes keeps the situation of the directory, if the records serialise, the
instance ids increase, no two accepted events have the same GTID and no crash leaves a complete
footer without a complete header. An event that is ahead in the newest file is not written again; a
new one is written at its end, and then the file may be switched.
-/

set_option autoImplicit false

namespace PhxSql.Paxos

open PhxSql.Proto PhxSql.Store PhxSql.Lib PhxSql.Lib.Transition PhxSql.Gtid

variable (cx : Codecs)

/-! ## Conditions -/

/-- Chosen values that can be executed again: no two events that are accepted have the same GTID,
and no instance has the id that stands for no checkpoint. -/
structure Replayable (es : List Entry) : Prop where
  ids : es.Pairwise fun e e' => e.instanceId < e'.instanceId
  small : ∀ e ∈ es, e.instanceId.toNat ≠ 2 ^ 64 - 1
  gtids : ((acceptedEvents cx es).map EventData.gtid).Nodup

/-- The records that an instance leads to serialise: a new event and, if the file is full after it,
the header of the next file with its two embedded messages. By then a master has been elected, and
it has a port. -/
def Storable (cfg : CrashConfig) (e : Entry) (r : Replica) : Prop :=
  ∀ data ∈ r.saved cx e,
    let event := savedEvent e.instanceId.toNat data
    let s := recordEvent cx r.store data.eventGtid event
    let made := getFileHeader cx r.master s
    r.store.lastInstanceID < e.instanceId.toNat →
      r.store.checkpointData.find? data.eventGtid = none →
      (cx.eventData.serialize event).isSome = true ∧
        (cfg.maxEventFileSize < s.manager.writer.offset →
          r.master.port.isSome = true ∧ 0 < r.master.version ∧
            made.1 = .ok ∧ (cx.eventData.serialize made.2.1).isSome = true ∧
            made.2.1.data ≠ [] ∧ made.2.1.masterData ≠ [])

/-- No complete footer without a complete header, and nothing of the footer of the first file
without a complete header. -/
def SafeCrash (cfg : CrashConfig) (es : List Entry) (p : Process) (k t : Nat) : Prop :=
  (Complete .footer (p.writes cx cfg es) k t → Complete .header (p.writes cx cfg es) k t) ∧
    (p.replica.store.checkpointId = 2 ^ 64 - 1 →
      Begun .footer (p.writes cx cfg es) k t → Complete .header (p.writes cx cfg es) k t)

/-- The steps after which a replica recovers. -/
def CrashOk (cfg : CrashConfig) (es : List Entry) (p : Process) (a : ProcessAction) : Prop :=
  (∀ e ∈ es[p.executed]?, Storable cx cfg e p.replica) ∧ match a with
    | .execute _ _ => True
    | .crash k t _ _ => SafeCrash cx cfg es p k t

instance (cfg : CrashConfig) (e : Entry) (r : Replica) : Decidable (Storable cx cfg e r) :=
  inferInstanceAs (Decidable (∀ data ∈ r.saved cx e, _))

instance (cfg : CrashConfig) (es : List Entry) (p : Process) (k t : Nat) :
    Decidable (SafeCrash cx cfg es p k t) :=
  inferInstanceAs (Decidable (_ ∧ _))

instance (cfg : CrashConfig) (es : List Entry) (p : Process) (a : ProcessAction) :
    Decidable (CrashOk cx cfg es p a) :=
  match a with
  | .execute _ _ => inferInstanceAs (Decidable (_ ∧ True))
  | .crash k t _ _ => inferInstanceAs (Decidable (_ ∧ SafeCrash cx cfg es p k t))

variable {cx}

/-! ## The next instance -/

section Next

variable {cfg : CrashConfig} {es : List Entry} {p : Process} {e : Entry}

/-- Instance ids increase, so the instances up to one are those with an id up to its own. -/
theorem replayStart_eq {n : Nat} (hids : es.Pairwise fun e e' => e.instanceId < e'.instanceId)
    (hnext : es[n]? = some e) (hsmall : e.instanceId.toNat ≠ 2 ^ 64 - 1) :
    replayStart es e.instanceId.toNat = n + 1 := by
  obtain ⟨hn, rfl⟩ := List.getElem?_eq_some_iff.mp hnext
  rw [List.pairwise_iff_getElem] at hids
  -- The instances before have smaller ids, those after have larger ones.
  have hbefore : (es.take (n + 1)).countP
      (fun e => decide (e.instanceId.toNat ≤ es[n].instanceId.toNat)) =
      (es.take (n + 1)).length := by
    rw [List.countP_eq_length]
    intro e he
    obtain ⟨i, hi, rfl⟩ := List.mem_take_iff_getElem.mp he
    rcases Nat.lt_or_ge i n with hlt | hge
    · exact decide_eq_true (UInt64.lt_iff_toNat_lt.mp (hids i n (by omega) hn hlt)).le
    · have hin : i = n := by omega
      subst hin
      simp
  have hafter : (es.drop (n + 1)).countP
      (fun e => decide (e.instanceId.toNat ≤ es[n].instanceId.toNat)) = 0 := by
    rw [List.countP_eq_zero]
    intro e he
    obtain ⟨i, hi, rfl⟩ := List.mem_drop_iff_getElem.mp he
    have hlt := UInt64.lt_iff_toNat_lt.mp (hids n (n + 1 + i) hn (by omega) (by omega))
    simp only [decide_eq_true_eq]
    omega
  have hlength : (es.take (n + 1)).length = n + 1 := by
    rw [List.length_take]
    omega
  have hsplit := @List.countP_append _
    (fun e => decide (e.instanceId.toNat ≤ es[n].instanceId.toNat)) (es.take (n + 1))
    (es.drop (n + 1))
  rw [List.take_append_drop] at hsplit
  rw [replayStart, if_neg hsmall, hsplit, hbefore, hafter, hlength]

theorem entryWrites_of_not_saved (h : p.replica.saved cx e = none) (maxSize : Nat) :
    entryWrites cx maxSize e p.replica = [] := by
  rcases savedValue_eq_none h with hsm | ⟨hsm, code, hv⟩
  · simp only [entryWrites, hsm]
  · simp only [entryWrites, hsm, hv]

theorem entryWrites_of_saved {data : PaxosEventData} (h : p.replica.saved cx e = some data)
    (maxSize : Nat) :
    entryWrites cx maxSize e p.replica =
      addEventWrites cx maxSize p.replica.master p.replica.store data.eventGtid
        (savedEvent e.instanceId.toNat data) := by
  obtain ⟨hsm, hv⟩ := savedValue_eq_some h
  simp only [entryWrites, hsm, hv]

variable (cx) in
/-- The process after the next instance. -/
def Process.next (cfg : CrashConfig) (now rand : Nat) (e : Entry) (p : Process) : Process where
  replica := (execute cx (cfg.localEnv now rand) 0 e p.replica).2
  executed := p.executed + 1

variable (cx) in
/-- The next instance is the event `x`, which is accepted. -/
structure NextEvent (e : Entry) (p : Process) (x : EventData) : Prop where
  saved : ∃ data, p.replica.saved cx e = some data ∧ x = savedEvent e.instanceId.toNat data
  newer : p.replica.store.lastInstanceID < x.instanceId

/-- The next instance is an accepted event or changes neither files nor events. -/
theorem InStep.next_cases (h : InStep cx es p) (hnext : es[p.executed]? = some e)
    (cfg : CrashConfig) (now rand : Nat) :
    (∃ x, NextEvent cx e p x) ∨
      ((p.next cx cfg now rand e).replica.store = p.replica.store ∧
        (logAfter cx es (p.executed + 1)).accepted = (logAfter cx es p.executed).accepted ∧
        entryWrites cx cfg.maxEventFileSize e p.replica = []) := by
  rw [logAfter_succ hnext]
  cases hsaved : p.replica.saved cx e with
  | none =>
    have hlog : (logAfter cx es p.executed).saved cx e = none :=
      (h.agrees.saved_eq e).symm.trans hsaved
    exact .inr ⟨execute_of_not_saved hsaved _ 0, ReplicatedLog.execute_of_not_saved hlog,
      entryWrites_of_not_saved hsaved _⟩
  | some data =>
    by_cases hid : e.instanceId.toNat ≤ p.replica.store.lastInstanceID
    · -- The event is there already.
      have hlog : (logAfter cx es p.executed).saved cx e = some data :=
        (h.agrees.saved_eq e).symm.trans hsaved
      refine .inr ⟨?_, ?_, ?_⟩
      · rw [Process.next, execute_of_saved hsaved, addEvent_of_le hid]
      · rw [ReplicatedLog.execute_of_saved hlog, ReplicatedLog.save, ← h.agrees.lastInstanceID,
          if_pos hid]
      · rw [entryWrites_of_saved hsaved, addEventWrites_of_le hid]
    · exact .inl ⟨_, ⟨data, hsaved, rfl⟩, Nat.lt_of_not_le hid⟩

variable {x : EventData}

theorem NextEvent.instanceId (h : NextEvent cx e p x) : x.instanceId = e.instanceId.toNat := by
  obtain ⟨data, -, rfl⟩ := h.saved
  rfl

theorem NextEvent.next_eq (h : NextEvent cx e p x) (cfg : CrashConfig) (now rand : Nat) :
    p.next cx cfg now rand e =
      { replica := { p.replica with
          store := (addEvent cx cfg.maxEventFileSize p.replica.master p.replica.store x.gtid x
            true).2 }
        executed := p.executed + 1 } := by
  obtain ⟨data, hsaved, rfl⟩ := h.saved
  rw [Process.next, execute_of_saved hsaved]
  rfl

theorem NextEvent.writes_eq (h : NextEvent cx e p x) (hnext : es[p.executed]? = some e)
    (cfg : CrashConfig) :
    p.writes cx cfg es =
      addEventWrites cx cfg.maxEventFileSize p.replica.master p.replica.store x.gtid x := by
  obtain ⟨data, hsaved, rfl⟩ := h.saved
  rw [Process.writes, hnext]
  exact entryWrites_of_saved hsaved _

theorem NextEvent.log_eq (h : NextEvent cx e p x) (hp : InStep cx es p)
    (hnext : es[p.executed]? = some e) :
    logAfter cx es (p.executed + 1) =
      { logAfter cx es p.executed with
        accepted := (logAfter cx es p.executed).accepted ++ [x] } := by
  obtain ⟨data, hsaved, rfl⟩ := h.saved
  have hlog : (logAfter cx es p.executed).saved cx e = some data :=
    (hp.agrees.saved_eq e).symm.trans hsaved
  have hnewer : ¬ e.instanceId.toNat ≤ p.replica.store.lastInstanceID := Nat.not_le.mpr h.newer
  rw [logAfter_succ hnext, ReplicatedLog.execute_of_saved hlog, ReplicatedLog.save,
    ← hp.agrees.lastInstanceID, if_neg hnewer]

/-- The next event is the one after those that are accepted. -/
theorem NextEvent.within (h : NextEvent cx e p x) (hp : InStep cx es p)
    (hnext : es[p.executed]? = some e) :
    (logAfter cx es p.executed).accepted ++ [x] <+: acceptedEvents cx es := by
  have hall := @accepted_logAfter cx es (p.executed + 1)
  rwa [h.log_eq hp hnext] at hall

theorem InStep.next (h : InStep cx es p) (hnext : es[p.executed]? = some e) (cfg : CrashConfig)
    (now rand : Nat) : InStep cx es (p.next cx cfg now rand e) := by
  refine ⟨(List.getElem?_eq_some_iff.mp hnext).1, ?_⟩
  show Agrees _ (logAfter cx es (p.executed + 1))
  rw [logAfter_succ hnext]
  exact h.agrees.execute _ 0 e

end Next

/-! ## A file switch -/

variable (cx) in
/-- The header of a file switch serialises with its two embedded messages. -/
structure Switchable (master : MasterInfo) (s : EventStorage) (header : EventData) : Prop where
  port : master.port.isSome = true
  version : 0 < master.version
  made : ∃ s', getFileHeader cx master s = (.ok, header, s')
  serialized : (cx.eventData.serialize header).isSome = true
  data : header.data ≠ []
  masterData : header.masterData ≠ []

/-- The store after the record of the next event has been written at the end of the newest file. -/
def Process.recorded (cx : Codecs) (p : Process) (x : EventData) : EventStorage :=
  recordEvent cx { p.replica.store with checkpointData := .empty } x.gtid x

theorem NextEvent.storable {cfg : CrashConfig} {e : Entry} {p : Process} {x : EventData}
    (h : NextEvent cx e p x) (hnew : p.replica.store.checkpointData.find? x.gtid = none)
    (hstorable : Storable cx cfg e p.replica) :
    (cx.eventData.serialize x).isSome = true ∧
      (cfg.maxEventFileSize < (p.recorded cx x).manager.writer.offset →
        ∃ header, Switchable cx p.replica.master (p.recorded cx x) header) := by
  obtain ⟨data, hsaved, rfl⟩ := h.saved
  obtain ⟨hser, hswitch⟩ := hstorable data hsaved h.newer hnew
  refine ⟨hser, ?_⟩
  intro hfull
  obtain ⟨hport, hversion, hok, hheader, hdata, hmasterData⟩ := hswitch hfull
  refine ⟨_, hport, hversion, ?_, hheader, hdata, hmasterData⟩
  have hmade := @getFileHeader_places cx p.replica.master
    (recordEvent cx p.replica.store data.eventGtid (savedEvent e.instanceId.toNat data)) .empty
  rw [hok] at hmade
  exact ⟨_, hmade⟩

/-- Nothing but segments stays there if only listed files change and none is taken off the list. -/
theorem noOthers_of_listed {d d' : Disk} {fs : FileSet} {segs segs' : List Segment}
    (h : NoOthers d segs) (hkeys : fs.keys = segs'.map Segment.file)
    (hkept : ∀ a ∈ segs, a.file ∈ segs'.map Segment.file)
    (hother : ∀ f, f ∉ fs.keys → d'.find? f = d.find? f) : NoOthers d' segs' := by
  intro f bs hf
  by_cases hlisted : f ∈ fs.keys
  · rw [hkeys] at hlisted
    obtain ⟨a, ha, rfl⟩ := List.mem_map.mp hlisted
    exact ⟨a, ha, rfl⟩
  · -- A file that is not listed was there before, as a segment.
    rw [hother f hlisted] at hf
    obtain ⟨a, ha, rfl⟩ := h f bs hf
    rw [hkeys] at hlisted
    exact absurd (hkept a ha) hlisted

/-- After a switch the newest file has the header only. -/
theorem headed_of_switch {cfg : CrashConfig} {es : List Entry} {s : EventStorage}
    {segs : List Segment} {g : Segment} {master : MasterInfo} {header : EventData} {n : Nat}
    (hfiles : FilesRep cx s.disk s.manager.fileList (segs ++ [g]))
    (honly : NoOthers s.disk (segs ++ [g])) (hw : s.manager.writer = g.endPos cx)
    (hempty : s.checkpointData = .empty) (hfull : cfg.maxEventFileSize < s.manager.writer.offset)
    (hswitch : Switchable cx master s header) (hlt : g.id < s.lastInstanceID)
    (hsmall : s.lastInstanceID < 2 ^ 64) (hcheckpoint : s.lastInstanceID ≠ 2 ^ 64 - 1)
    (hstart : replayStart es s.lastInstanceID = n)
    (hmaster : Master.erase master = (logAfter cx es n).master)
    (htable : TableAgrees s.uuidHandler (logAfter cx es n))
    (hevents : (logAfter cx es n).accepted = eventsOf (segs ++ [g])) (r : Replica)
    (hr : r.store = checkAndSwitchFile cx cfg.maxEventFileSize master s) :
    Headed cx cfg es { replica := r, executed := n } (segs ++ [g.add cx header])
      { id := s.lastInstanceID, records := [header] } header [] [] := by
  obtain ⟨s', hmade⟩ := hswitch.made
  obtain ⟨hgtid, hid, hkept⟩ := @getFileHeader_record cx master s (by rw [hmade])
  rw [hmade] at hgtid hid hkept
  have hstore : checkAndSwitchFile cx cfg.maxEventFileSize master s =
      switchNewFile cx { s with index := flushEventUUIDInfo s.uuidHandler s.index } header
        true := by
    rw [checkAndSwitchFile, if_pos hfull, hmade]
    simp only [if_true]
    rw [← hkept]
  obtain ⟨hrep, hwrep, -, hother⟩ := @switchNewFile_rep cx
    { s with index := flushEventUUIDInfo s.uuidHandler s.index } segs g hfiles hw header
    (hid ▸ hlt) (hid ▸ hsmall)
  rw [← hstore] at hrep hwrep hother
  have hnew : Segment.add cx { id := header.instanceId } header =
      { id := s.lastInstanceID, records := [header] } := by
    rw [Segment.add, if_pos hswitch.serialized, hid]
    rfl
  rw [hnew] at hrep hwrep
  have hevents' : eventsOf (segs ++ [g.add cx header]) = eventsOf (segs ++ [g]) := by
    rw [eventsOf_append, eventsOf_append, eventsOf_singleton_add g hgtid]
  have hheader : HeaderOf cx header (logAfter cx es n) := by
    apply headerOf_getFileHeader hmade ordered_logAfter hmaster htable _ hswitch.port
      hswitch.version hswitch.data hswitch.masterData
    rw [hw]
    exact genFileName_ne_nil g.id
  have honly' : NoOthers (checkAndSwitchFile cx cfg.maxEventFileSize master s).disk
      (segs ++ [g.add cx header] ++ [{ id := s.lastInstanceID, records := [header] }]) := by
    apply noOthers_of_listed honly hrep.keys _ hother
    intro a ha
    rcases List.mem_append.mp ha with ha | ha
    · exact List.mem_map_of_mem (List.mem_append_left _ (List.mem_append_left _ ha))
    · rw [List.mem_singleton.mp ha, ← Segment.add_file cx g header]
      exact List.mem_map_of_mem (by simp)
  have hsame : (checkAndSwitchFile cx cfg.maxEventFileSize master s).checkpointId =
      header.instanceId := by
    rw [hstore]
    rfl
  have hplaces : (checkAndSwitchFile cx cfg.maxEventFileSize master s).checkpointData = .empty := by
    rw [hstore]
    exact hempty
  refine {
    files := ?files, writer := ?writer, checkpointId := ?checkpointId, accepted := ?accepted,
    aheadKnown := ?aheadKnown, known := ?known }
  case files =>
    rw [hr]
    -- The log at the new checkpoint is the log now, so nothing is to be replayed.
    refine ⟨hrep, honly', rfl, hid.symm, ?_, ?_, ?_, ?_, ?_⟩
    · rw [hid]
      exact hcheckpoint
    · rw [hid, hstart]
      exact hheader
    · rw [hid, hstart, hevents, hevents']
    · rw [hevents', ← hevents, List.append_nil, List.append_nil]
      exact accepted_logAfter
    · intro hne
      exact absurd rfl hne
  case writer =>
    rw [hr]
    exact hwrep
  case checkpointId =>
    rw [hr]
    exact hsame
  case accepted =>
    rw [hevents', List.append_nil]
    exact hevents
  case aheadKnown =>
    intro x hx
    cases hx
  case known =>
    -- A process that has just switched files knows no events beforehand.
    intro gtid hgtid'
    rw [hr, hplaces] at hgtid'
    cases hgtid'

section Switch

variable {cfg : CrashConfig} {es : List Entry} {p : Process} {e : Entry} {x : EventData}

/-- A new event is recorded where there is room for it. -/
theorem NextEvent.next_recorded (hx : NextEvent cx e p x)
    (hnew : p.replica.store.checkpointData.find? x.gtid = none)
    (hroom : p.replica.store.checkpointData ≠ .empty →
      p.replica.store.manager.writer.offset ≤ cfg.maxEventFileSize) (now rand : Nat) :
    p.next cx cfg now rand e =
      { replica := { p.replica with
          store := checkAndSwitchFile cx cfg.maxEventFileSize p.replica.master (p.recorded cx x) }
        executed := p.executed + 1 } := by
  rw [hx.next_eq, addEvent_room hx.newer hnew hroom]
  rfl

/-- The record of the event fills the newest file. -/
theorem NextEvent.headed (hx : NextEvent cx e p x) (hes : Replayable cx es) (hp : InStep cx es p)
    (hnext : es[p.executed]? = some e) {header : EventData}
    (hswitch : Switchable cx p.replica.master (p.recorded cx x) header) {segs : List Segment}
    {g : Segment}
    (hfiles : FilesRep cx (p.recorded cx x).disk (p.recorded cx x).manager.fileList (segs ++ [g]))
    (honly : NoOthers (p.recorded cx x).disk (segs ++ [g]))
    (hw : (p.recorded cx x).manager.writer = g.endPos cx)
    (hfull : cfg.maxEventFileSize < (p.recorded cx x).manager.writer.offset)
    (hlt : g.id < x.instanceId)
    (hevents : (logAfter cx es p.executed).accepted ++ [x] = eventsOf (segs ++ [g])) :
    Headed cx cfg es
      { replica := { p.replica with
          store := checkAndSwitchFile cx cfg.maxEventFileSize p.replica.master (p.recorded cx x) }
        executed := p.executed + 1 }
      (segs ++ [g.add cx header]) { id := x.instanceId, records := [header] } header [] [] := by
  have hmem : e ∈ es := List.mem_of_getElem? hnext
  have hid := hx.instanceId
  have hlast : (p.recorded cx x).lastInstanceID = x.instanceId := rfl
  have hlog := hx.log_eq hp hnext
  have hsmall : x.instanceId < 2 ^ 64 := by
    rw [hid]
    exact e.instanceId.toNat_lt
  have hcheckpoint : x.instanceId ≠ 2 ^ 64 - 1 := by
    rw [hid]
    exact hes.small e hmem
  -- A start from the new header replays from behind the instance of the event.
  have hstart : replayStart es x.instanceId = p.executed + 1 := by
    rw [hid]
    exact replayStart_eq hes.ids hnext (hes.small e hmem)
  refine headed_of_switch hfiles honly hw rfl hfull hswitch hlt hsmall hcheckpoint hstart ?_ ?_ ?_ _
    rfl
  · rw [hlog]
    exact hp.agrees.master
  · rw [hlog]
    exact hp.agrees.table.update _ x
  · rw [hlog]
    exact hevents

end Switch

/-! ## Events in the first file -/

section First

variable {cfg : CrashConfig} {es : List Entry} {p : Process} {e : Entry} {x : EventData}
  {stored : Nat}

/-- Only the store and the accepted events matter. -/
theorem FirstFile.same (h : FirstFile cx cfg es p stored) {p' : Process}
    (hstore : p'.replica.store = p.replica.store)
    (haccepted : (logAfter cx es p'.executed).accepted = (logAfter cx es p.executed).accepted) :
    FirstFile cx cfg es p' stored := by
  refine {
    checkpointId := ?checkpointId, preloaded := ?preloaded, disk := ?disk, fileList := ?fileList,
    writer := ?writer, behind := ?behind, room := ?room, holds := h.holds }
  case checkpointId =>
    rw [hstore, h.checkpointId]
  case preloaded =>
    rw [hstore, h.preloaded]
  case disk =>
    rw [hstore, h.disk]
  case fileList =>
    rw [hstore, h.fileList]
  case writer =>
    rw [hstore, haccepted, h.writer]
  case behind =>
    rw [haccepted]
    exact h.behind
  case room =>
    rw [haccepted]
    exact h.room

/-- A part of the next event in the first file. -/
theorem firstFile_write {all done : List EventData} (hx : done ++ [x] <+: all)
    (hbehind : (segmentBytes cx done).length ≤ stored) (n : Nat) :
    (firstFile ((segmentBytes cx all).take stored)).insert (genFileName 0)
        (writeAt ((segmentBytes cx all).take stored) (segmentBytes cx done).length
          ((frame (recordBytes cx x)).take n)) =
      firstFile ((segmentBytes cx all).take (max stored
        ((segmentBytes cx done).length + min n (frame (recordBytes cx x)).length))) := by
  obtain ⟨rest, rfl⟩ := hx
  have hbytes : segmentBytes cx (done ++ [x] ++ rest) =
      segmentBytes cx done ++ (frame (recordBytes cx x) ++ segmentBytes cx rest) := by
    rw [List.append_assoc, segmentBytes_append, List.singleton_append, segmentBytes_cons]
  rw [hbytes, writeAt_take hbehind, firstFile, SortedMap.insert_insert]
  rfl

/-- The events before the position of the writer serialise. -/
theorem StoredFirst.serialized_of_le {maxSize : Nat} {all done : List EventData}
    (h : StoredFirst cx maxSize all stored) (hdone : done <+: all)
    (hbehind : (segmentBytes cx done).length ≤ stored) {y : EventData} (hy : y ∈ done) :
    (cx.eventData.serialize y).isSome = true := by
  obtain ⟨pre, post, rfl⟩ := List.append_of_mem hy
  have hpart : pre ++ [y] <+: pre ++ y :: post := ⟨post, by simp⟩
  apply h.serialized pre y (hpart.trans hdone)
  have hlen := @length_segmentBytes_le cx _ _ hpart
  rw [length_segmentBytes_concat, length_frame] at hlen
  omega

theorem eventsOf_of_gtids {rs : List EventData} (h : ∀ r ∈ rs, r.gtid ≠ []) (id : Nat) :
    eventsOf [{ id := id, records := rs }] = rs := by
  rw [eventsOf, List.flatMap_singleton, List.filter_eq_self]
  intro r hr
  exact decide_eq_true (h r hr)

/-- The first file after the record of the next event. -/
theorem FirstFile.disk_recorded (h : FirstFile cx cfg es p stored) (hp : InStep cx es p)
    (hnext : es[p.executed]? = some e) (hx : NextEvent cx e p x)
    (hser : (cx.eventData.serialize x).isSome = true) :
    (p.recorded cx x).disk = firstFile ((segmentBytes cx (acceptedEvents cx es)).take
      (max stored (segmentBytes cx ((logAfter cx es p.executed).accepted ++ [x])).length)) := by
  have hdisk := @disk_recordEvent cx { p.replica.store with checkpointData := .empty } x.gtid x hser
  have hcontent : content p.replica.store.disk p.replica.store.manager.writer.path =
      (segmentBytes cx (acceptedEvents cx es)).take stored := by
    rw [h.disk, h.writer, content, find?_firstFile, Option.getD_some]
  have hwrite := firstFile_write (hx.within hp hnext) h.behind (frame (recordBytes cx x)).length
  rw [List.take_length, Nat.min_self] at hwrite
  rw [Process.recorded, hdisk, length_segmentBytes_concat, ← hwrite]
  simp only [hcontent]
  rw [h.writer, h.disk]

theorem take_segmentBytes {pre all : List EventData} (h : pre <+: all) :
    (segmentBytes cx all).take (segmentBytes cx pre).length = segmentBytes cx pre := by
  obtain ⟨rest, rfl⟩ := h
  rw [segmentBytes_append, List.take_left]

/-- The first file as the only segment. -/
theorem firstFile_rep {rs : List EventData}
    (hser : ∀ r ∈ rs, (cx.eventData.serialize r).isSome = true) :
    FilesRep cx (firstFile (segmentBytes cx rs)) emptyStorage.manager.fileList
        ([] ++ [{ id := 0, records := rs }]) ∧
      NoOthers (firstFile (segmentBytes cx rs)) ([] ++ [{ id := 0, records := rs }]) := by
  have hempty : FilesRep cx emptyStorage.disk emptyStorage.manager.fileList ([] ++ [{ id := 0 }]) :=
    storeRep_empty.files
  refine ⟨hempty.setLast hser, ?_⟩
  intro f bs hf
  obtain ⟨f', hmem, hrank⟩ := SortedMap.find?_eq_some_iff.mp hf
  have hlisted : f' ∈ (firstFile (segmentBytes cx rs)).keys := List.mem_map_of_mem hmem
  rw [byteRank_inj.mp hrank, keys_firstFile] at hlisted
  exact ⟨{ id := 0, records := rs }, by simp, List.mem_singleton.mp hlisted⟩

/-- The process writes the next event into the first file and switches it if it is full then. -/
theorem FirstFile.event (h : FirstFile cx cfg es p stored) (hes : Replayable cx es)
    (hp : InStep cx es p) (hnext : es[p.executed]? = some e) (hx : NextEvent cx e p x)
    (hstorable : Storable cx cfg e p.replica) (now rand : Nat) :
    (∃ stored', FirstFile cx cfg es (p.next cx cfg now rand e) stored') ∨
      ∃ segs g header, Headed cx cfg es (p.next cx cfg now rand e) segs g header [] [] := by
  have hnew : p.replica.store.checkpointData.find? x.gtid = none := by rw [h.preloaded]; rfl
  obtain ⟨hser, hswitch⟩ := hx.storable hnew hstorable
  have hwithin := hx.within hp hnext
  have hlog := hx.log_eq hp hnext
  have hdisk := h.disk_recorded hp hnext hx hser
  have hconcat := @length_segmentBytes_concat cx (logAfter cx es p.executed).accepted x
  have hwriter : (p.recorded cx x).manager.writer =
      { path := genFileName 0
        offset := (segmentBytes cx ((logAfter cx es p.executed).accepted ++ [x])).length } := by
    rw [hconcat, Process.recorded, writer_recordEvent hser]
    simp only [h.writer]
  have hlist : (p.recorded cx x).manager.fileList = emptyStorage.manager.fileList :=
    fileList_recordEvent.trans h.fileList
  have hholds := h.holds.write hwithin h.behind h.room hser (frame (recordBytes cx x)).length
  rw [Nat.min_self, ← hconcat] at hholds
  rw [hx.next_recorded hnew fun hne => absurd h.preloaded hne]
  by_cases hfits : (segmentBytes cx ((logAfter cx es p.executed).accepted ++ [x])).length ≤
      cfg.maxEventFileSize
  · -- There is room for the next event.
    have hkeep := @checkAndSwitchFile_of_le cx cfg.maxEventFileSize (p.recorded cx x)
      (by rw [hwriter]; exact hfits) p.replica.master
    rw [hkeep]
    refine .inl ⟨max stored (segmentBytes cx ((logAfter cx es p.executed).accepted ++ [x])).length,
      h.checkpointId, rfl, hdisk, hlist, ?_, ?_, ?_, hholds⟩
    · rw [hlog]
      exact hwriter
    · rw [hlog]
      exact Nat.le_max_right ..
    · rw [hlog]
      exact hfits
  · -- The file is full, so nothing in it is behind this event.
    have hfull := Nat.lt_of_not_le hfits
    have hstored : max stored
        (segmentBytes cx ((logAfter cx es p.executed).accepted ++ [x])).length =
        (segmentBytes cx ((logAfter cx es p.executed).accepted ++ [x])).length :=
      Nat.le_antisymm (hholds.full _ hwithin hfull) (Nat.le_max_right ..)
    rw [hstored, take_segmentBytes hwithin] at hdisk
    have hserialized : ∀ y ∈ (logAfter cx es p.executed).accepted ++ [x],
        (cx.eventData.serialize y).isSome = true :=
      fun y hy => hholds.serialized_of_le hwithin (Nat.le_max_right ..) hy
    have hgtids : ∀ y ∈ (logAfter cx es p.executed).accepted ++ [x], y.gtid ≠ [] :=
      fun y hy => (@ordered_executeAll cx es).gtids y (hwithin.subset hy)
    obtain ⟨hfiles, honly⟩ := firstFile_rep hserialized
    rw [← hdisk] at hfiles honly
    rw [← hlist] at hfiles
    have hover : cfg.maxEventFileSize < (p.recorded cx x).manager.writer.offset := by
      rw [hwriter]
      exact hfull
    obtain ⟨header, hswitch⟩ := hswitch hover
    refine .inr ⟨_, _, _, hx.headed hes hp hnext hswitch hfiles honly hwriter hover ?_ ?_⟩
    · exact Nat.lt_of_le_of_lt (Nat.zero_le _) hx.newer
    · exact (eventsOf_of_gtids hgtids 0).symm

end First

end PhxSql.Paxos
