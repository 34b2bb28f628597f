import PhxSql.Paxos.CrashRun
import PhxSql.Paxos.LogTable
import PhxSql.Store.CrashWrites

/-!
# What the directory of a crashing replica holds

A process is in one of two situations. Until the first file switch there is one file without a
header, and a new process starts with nothing and writes the events over those that are there
already (`FirstFile`). After it the newest file begins with a header that holds the memory of the
log at the checkpoint; its events up to a point have been executed, and the others are ahead of the
process and known from the start (`Headed`). In both cases the files hold a part of the events that
a replica without crashes accepts, and a new process finds the same situation again
(`FirstFile.restart`, `HeadedFiles.restart`).
-/

set_option autoImplicit false

namespace PhxSql.Paxos

open PhxSql.Proto PhxSql.Store PhxSql.Lib PhxSql.Lib.Transition PhxSql.Gtid

variable (cx : Codecs)

/-! ## The log at a point of the run -/

/-- The log after the first `n` instances. -/
def logAfter (es : List Entry) (n : Nat) : ReplicatedLog :=
  (ReplicatedLog.executeAll cx (es.take n)).2

/-- All events that a replica without crashes accepts. -/
def acceptedEvents (es : List Entry) : List EventData :=
  (ReplicatedLog.executeAll cx es).2.accepted

variable {cx}

theorem ReplicatedLog.accepted_executeFrom (es : List Entry) :
    ∀ l : ReplicatedLog, l.accepted <+: (l.executeFrom cx es).2.accepted := by
  induction es with
  | nil => intro l; exact List.prefix_rfl
  | cons e es ih =>
    intro l
    refine List.IsPrefix.trans ?_ (ih (l.execute cx e).2)
    rcases @ReplicatedLog.execute_cases cx e l with hsame | ⟨data, -, -, hnext⟩
    · exact ⟨[], by rw [hsame, List.append_nil]⟩
    · rw [hnext]
      exact List.prefix_append _ _

section LogAfter

variable {es : List Entry} {n : Nat}

theorem logAfter_succ {e : Entry} (h : es[n]? = some e) :
    logAfter cx es (n + 1) = ((logAfter cx es n).execute cx e).2 := by
  rw [logAfter, List.take_add_one, h]
  exact ReplicatedLog.executeAll_concat _ e

theorem logAfter_length : logAfter cx es es.length = (ReplicatedLog.executeAll cx es).2 := by
  rw [logAfter, List.take_length]

theorem ordered_logAfter : Ordered (logAfter cx es n) :=
  ordered_executeAll _

/-- What is accepted at some point stays accepted. -/
theorem accepted_logAfter : (logAfter cx es n).accepted <+: acceptedEvents cx es := by
  have h := @ReplicatedLog.accepted_executeFrom cx (es.drop n) (logAfter cx es n)
  rwa [logAfter, ReplicatedLog.executeAll, ← ReplicatedLog.executeFrom_append,
    List.take_append_drop] at h

end LogAfter

/-! ## The first file -/

variable (cx) in
/-- What the first file may hold of the events: up to the one that fills it, and only events that
serialise. -/
structure StoredFirst (maxSize : Nat) (all : List EventData) (stored : Nat) : Prop where
  bound : stored ≤ (segmentBytes cx all).length
  full : ∀ pre, pre <+: all → maxSize < (segmentBytes cx pre).length →
    stored ≤ (segmentBytes cx pre).length
  serialized : ∀ pre x, pre ++ [x] <+: all → (segmentBytes cx pre).length < stored →
    (cx.eventData.serialize x).isSome = true

variable (cx) in
/-- A process that has not switched files since the first event. -/
structure FirstFile (cfg : CrashConfig) (es : List Entry) (p : Process) (stored : Nat) : Prop where
  checkpointId : p.replica.store.checkpointId = 2 ^ 64 - 1
  preloaded : p.replica.store.checkpointData = .empty
  disk : p.replica.store.disk = firstFile ((segmentBytes cx (acceptedEvents cx es)).take stored)
  fileList : p.replica.store.manager.fileList = emptyStorage.manager.fileList
  writer : p.replica.store.manager.writer =
    { path := genFileName 0
      offset := (segmentBytes cx (logAfter cx es p.executed).accepted).length }
  behind : (segmentBytes cx (logAfter cx es p.executed).accepted).length ≤ stored
  room : (segmentBytes cx (logAfter cx es p.executed).accepted).length ≤ cfg.maxEventFileSize
  holds : StoredFirst cx cfg.maxEventFileSize (acceptedEvents cx es) stored

theorem length_segmentBytes_le {pre all : List EventData} (h : pre <+: all) :
    (segmentBytes cx pre).length ≤ (segmentBytes cx all).length := by
  obtain ⟨rest, rfl⟩ := h
  rw [segmentBytes_append, List.length_append]
  exact Nat.le_add_right ..

theorem length_segmentBytes_concat (pre : List EventData) (x : EventData) :
    (segmentBytes cx (pre ++ [x])).length =
      (segmentBytes cx pre).length + (frame (recordBytes cx x)).length := by
  rw [segmentBytes_append, segmentBytes_cons, segmentBytes_nil, List.append_nil,
    List.length_append]

/-- A part of the next event may arrive. -/
theorem StoredFirst.write {maxSize stored : Nat} {all done : List EventData} {x : EventData}
    (h : StoredFirst cx maxSize all stored) (hx : done ++ [x] <+: all)
    (hbehind : (segmentBytes cx done).length ≤ stored)
    (hroom : (segmentBytes cx done).length ≤ maxSize)
    (hser : (cx.eventData.serialize x).isSome = true) (n : Nat) :
    StoredFirst cx maxSize all (max stored
      ((segmentBytes cx done).length + min n (frame (recordBytes cx x)).length)) := by
  have hlen := @length_segmentBytes_concat cx done x
  have hmin := Nat.min_le_right n (frame (recordBytes cx x)).length
  refine ⟨?_, ?_, ?_⟩
  · have hall := @length_segmentBytes_le cx _ _ hx
    exact Nat.max_le.mpr ⟨h.bound, by omega⟩
  · intro pre hpre hfull
    refine Nat.max_le.mpr ⟨h.full pre hpre hfull, ?_⟩
    -- A full file has at least this event.
    rcases List.prefix_or_prefix_of_prefix hpre hx with hle | hle
    · rcases List.prefix_concat_iff.mp hle with rfl | hle
      · omega
      · have := @length_segmentBytes_le cx _ _ hle
        omega
    · have := @length_segmentBytes_le cx _ _ hle
      omega
  · intro pre y hy hlt
    by_cases hold : (segmentBytes cx pre).length < stored
    · exact h.serialized pre y hy hold
    · have hlt' : (segmentBytes cx pre).length < (segmentBytes cx (done ++ [x])).length := by
        rcases lt_max_iff.mp hlt with hlt | hlt
        · exact absurd hlt hold
        · omega
      -- The record after `pre` ends behind `done`, so it is the new one.
      rcases List.prefix_or_prefix_of_prefix hy hx with hle | hle
      · rcases List.prefix_concat_iff.mp hle with heq | hle
        · obtain ⟨-, hyx⟩ := List.append_inj' heq rfl
          cases hyx
          exact hser
        · have hpre := @length_segmentBytes_le cx _ _ ((List.prefix_append pre [y]).trans hle)
          have hgrow := @length_segmentBytes_le cx _ _ hle
          rw [length_segmentBytes_concat, length_frame] at hgrow
          omega
      · rcases List.prefix_concat_iff.mp hle with heq | hle
        · obtain ⟨-, hyx⟩ := List.append_inj' heq rfl
          cases hyx
          exact hser
        · have := @length_segmentBytes_le cx _ _ hle
          omega

/-- A cut-off record is not read. -/
theorem readFrame_take {r : EventData} {t : Nat} (ht : t < (frame (recordBytes cx r)).length) :
    readFrame maxRecordLen ((frame (recordBytes cx r)).take t) = none := by
  have hlen := length_recordBytes_le cx r
  apply readFrame_torn (Nat.lt_of_le_of_lt hlen (by decide)) (List.take_prefix ..)
  rw [List.length_take]
  exact Nat.lt_of_le_of_lt (Nat.min_le_left ..) ht

/-- The first file does not begin with a header. -/
theorem StoredFirst.first_event {maxSize stored : Nat} {all : List EventData}
    (h : StoredFirst cx maxSize all stored) (hgtids : ∀ x ∈ all, x.gtid ≠ []) (bytes : Bytes)
    (r : EventData)
    (hread : readFrame maxRecordLen ((segmentBytes cx all).take stored) = some bytes)
    (hparse : cx.eventData.parse bytes = some r) : r.gtid ≠ [] := by
  cases all with
  | nil =>
    rw [segmentBytes_nil, List.take_nil, readFrame_nil] at hread
    cases hread
  | cons x all =>
    rw [segmentBytes_cons] at hread
    have hlen := length_recordBytes_le cx x
    by_cases hwhole : (frame (recordBytes cx x)).length ≤ stored
    · rw [List.take_append, List.take_of_length_le hwhole, readFrame_frame hlen (by decide),
        Option.some.injEq] at hread
      have hser := h.serialized [] x (by simp) (by rw [length_frame] at hwhole; simp; omega)
      rw [← hread, parse_recordBytes hser, Option.some.injEq] at hparse
      rw [← hparse]
      exact hgtids x List.mem_cons_self
    · -- The first event is cut off.
      have hcut : stored ≤ (frame (recordBytes cx x)).length := (Nat.lt_of_not_le hwhole).le
      rw [List.take_append_of_le_length hcut] at hread
      rw [readFrame_take (Nat.lt_of_not_le hwhole)] at hread
      cases hread

/-- The memory of a process is that of the log after the instances it has executed. -/
structure InStep (cx : Codecs) (es : List Entry) (p : Process) : Prop where
  executed : p.executed ≤ es.length
  agrees : Agrees p.replica (logAfter cx es p.executed)

/-- A new process on the first file. -/
theorem StoredFirst.restart {cfg : CrashConfig} {es : List Entry} {stored : Nat}
    (h : StoredFirst cx cfg.maxEventFileSize (acceptedEvents cx es) stored) (index : EventIndex)
    (now : Nat) :
    ∃ p, restart cx cfg es now index
        (firstFile ((segmentBytes cx (acceptedEvents cx es)).take stored)) = some p ∧
      InStep cx es p ∧ FirstFile cx cfg es p stored := by
  have hload := loadFromCheckPoint_first
    (h.first_event (@ordered_executeAll cx es).gtids) index now cfg.leaseTime cfg.extLeaseTime
  refine ⟨_, by rw [Paxos.restart, hload, Option.map_some], ⟨?_, ?_⟩, ?_⟩
  · exact Nat.zero_le _
  · exact agrees_empty rfl
  · exact ⟨rfl, rfl, rfl, rfl, rfl, Nat.zero_le _, Nat.zero_le _, h⟩

/-! ## A newest file with a header -/

variable (cx) in
/-- Files of which the newest begins with a header: it holds the memory of the log at the
checkpoint, the files before it hold the events up to there, and it holds the next ones. -/
structure HeadedFiles (cfg : CrashConfig) (es : List Entry) (d : Disk) (fs : FileSet)
    (segs : List Segment) (g : Segment) (header : EventData) (events : List EventData) : Prop where
  files : FilesRep cx d fs (segs ++ [g])
  only : NoOthers d (segs ++ [g])
  records : g.records = header :: events
  name : g.id = header.instanceId
  small : header.instanceId ≠ 2 ^ 64 - 1
  memory : HeaderOf cx header (logAfter cx es (replayStart es header.instanceId))
  before : (logAfter cx es (replayStart es header.instanceId)).accepted = eventsOf segs
  within : eventsOf segs ++ events <+: acceptedEvents cx es
  room : events ≠ [] → (segmentBytes cx g.records).length ≤ cfg.maxEventFileSize

variable (cx) in
/-- A process that writes to such a file. It has executed the events `done` of the file; the events
`ahead` are in the file already, and the process knows them from its start. -/
structure Headed (cfg : CrashConfig) (es : List Entry) (p : Process) (segs : List Segment)
    (g : Segment) (header : EventData) (done ahead : List EventData) : Prop where
  files : HeadedFiles cx cfg es p.replica.store.disk p.replica.store.manager.fileList segs g header
    (done ++ ahead)
  writer : p.replica.store.manager.writer = g.endPos cx
  checkpointId : p.replica.store.checkpointId = header.instanceId
  accepted : (logAfter cx es p.executed).accepted = eventsOf segs ++ done
  aheadKnown : ∀ x ∈ ahead, (p.replica.store.checkpointData.find? x.gtid).isSome = true
  known : ∀ gtid, (p.replica.store.checkpointData.find? gtid).isSome = true →
    ∃ x ∈ done ++ ahead, x.gtid = gtid

theorem noOthers_setLast {d : Disk} {segs : List Segment} {g : Segment}
    (h : NoOthers d (segs ++ [g])) (bs : Bytes) (rs : List EventData) :
    NoOthers (d.insert g.file bs) (segs ++ [{ g with records := rs }]) := by
  intro f bs' hf
  by_cases hne : f = g.file
  · exact ⟨{ g with records := rs }, by simp, hne⟩
  · rw [SortedMap.find?_insert_of_ne (by simpa using hne)] at hf
    obtain ⟨a, ha, rfl⟩ := h f bs' hf
    rcases List.mem_append.mp ha with ha | ha
    · exact ⟨a, List.mem_append_left _ ha, rfl⟩
    · rw [List.mem_singleton.mp ha] at hne
      exact absurd rfl hne

/-- A new process on such files, where the newest one holds these events and an unreadable rest. -/
theorem HeadedFiles.restart {cfg : CrashConfig} {es : List Entry} {d : Disk} {fs : FileSet}
    {segs : List Segment} {g : Segment} {header : EventData} {events events' : List EventData}
    (h : HeadedFiles cx cfg es d fs segs g header events)
    (hser : ∀ r ∈ events', (cx.eventData.serialize r).isSome = true)
    (hwithin : eventsOf segs ++ events' <+: acceptedEvents cx es)
    (hroom : events'.dropLast ≠ [] →
      (segmentBytes cx (header :: events'.dropLast)).length ≤ cfg.maxEventFileSize)
    {tail : Bytes} (htail : readFrame maxRecordLen tail = none) (index : EventIndex) (now : Nat) :
    ∃ p, Paxos.restart cx cfg es now index
        (d.insert g.file (segmentBytes cx (header :: events') ++ tail)) = some p ∧
      InStep cx es p ∧
      Headed cx cfg es p segs { g with records := header :: events'.dropLast } header []
        events'.dropLast := by
  have hg : g ∈ segs ++ [g] := by simp
  have hheader := h.files.serialized g hg header (by rw [h.records]; exact List.mem_cons_self)
  have hser' : ∀ r ∈ header :: events', (cx.eventData.serialize r).isSome = true := by
    intro r hr
    rcases List.mem_cons.mp hr with rfl | hr
    · exact hheader
    · exact hser r hr
  -- Memory comes from the header; of the events all but the last are known from the file.
  obtain ⟨table, master, hloadable, hversion, hmaster, htable⟩ := h.memory.loads
  obtain ⟨s, hload, hdisk, hfiles, hwriter, huuid, hid, hknown⟩ := loadFromCheckPoint_headed h.files
    h.only hser' htail hloadable index now cfg.leaseTime cfg.extLeaseTime
  have hstart : replayStart es header.instanceId ≤ es.length := by
    rw [replayStart, if_neg h.small]
    exact List.countP_le_length
  have hkept : ∀ r ∈ header :: events'.dropLast, (cx.eventData.serialize r).isSome = true := by
    intro r hr
    rcases List.mem_cons.mp hr with rfl | hr
    · exact hheader
    · exact hser r ((List.dropLast_prefix _).subset hr)
  refine ⟨_, by rw [Paxos.restart, hload, Option.map_some], ⟨?_, ?_⟩, ?_⟩
  · rw [hid]
    exact hstart
  · refine ⟨?_, ?_⟩
    · rw [hid]
      exact (erase_loadFromCheckPoint hversion ..).trans hmaster
    · rw [hid, huuid]
      exact htable
  · refine ⟨?_, hwriter, hid, ?_, ?_, ?_⟩
    · rw [hdisk, hfiles, List.nil_append]
      refine ⟨h.files.setLast hkept, noOthers_setLast h.only _ _, rfl, h.name, h.small, h.memory,
        h.before, ?_, hroom⟩
      have hpart : eventsOf segs ++ events'.dropLast <+: eventsOf segs ++ events' :=
        (List.prefix_append_right_inj _).mpr (List.dropLast_prefix _)
      exact hpart.trans hwithin
    · rw [hid, List.append_nil]
      exact h.before
    · intro x hx
      refine (hknown x.gtid).mpr ⟨x, hx, ?_, rfl⟩
      apply (@ordered_executeAll cx es).gtids x
      apply hwithin.subset
      exact List.mem_append_right _ ((List.dropLast_prefix _).subset hx)
    · intro gtid hgtid
      obtain ⟨x, hx, -, heq⟩ := (hknown gtid).mp hgtid
      exact ⟨x, hx, heq⟩

end PhxSql.Paxos
