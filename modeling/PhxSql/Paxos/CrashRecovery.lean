import PhxSql.Paxos.CrashHeaded

/-!
# Recovery from crashes

Whatever part of the writes of an instance arrives before a crash, if it is a permitted one, a new
process finds the first file or a file with a header again (`Resumable.crash`). So a replica that
has executed all instances, after any number of permitted crashes, has the events and the memory of
one that never crashed (`crash_recovery_refines`).

A crash between a complete footer and a complete header is not permitted. The new process takes the
footer for the last record and cuts it off, so that the file is still full but the event that filled
it is not written again and leads to no switch. The switch comes with a later event, and then its
header pairs the instance id of the old event with the master of that time (`footerRun`).
-/

set_option autoImplicit false

namespace PhxSql.Paxos

open PhxSql.Proto PhxSql.Store PhxSql.Lib PhxSql.Lib.Transition PhxSql.Gtid

variable (cx : Codecs)

/-- A process in step with the log on a directory of one of the two kinds. -/
structure Resumable (cfg : CrashConfig) (es : List Entry) (p : Process) : Prop where
  inStep : InStep cx es p
  directory : (∃ stored, FirstFile cx cfg es p stored) ∨
    ∃ segs g header done ahead, Headed cx cfg es p segs g header done ahead

/-- A new process on this directory recovers. -/
def Restarts (cfg : CrashConfig) (es : List Entry) (d : Disk) : Prop :=
  ∀ index now, ∃ p, restart cx cfg es now index d = some p ∧ Resumable cx cfg es p

variable {cx} {cfg : CrashConfig} {es : List Entry} {p : Process} {e : Entry} {x : EventData}
  {stored : Nat} {segs : List Segment} {g : Segment} {header : EventData}
  {done ahead : List EventData}

/-! ## Restarts -/

theorem StoredFirst.restarts
    (h : StoredFirst cx cfg.maxEventFileSize (acceptedEvents cx es) stored) :
    Restarts cx cfg es (firstFile ((segmentBytes cx (acceptedEvents cx es)).take stored)) := by
  intro index now
  obtain ⟨p, hrestart, hp, hfirst⟩ := h.restart index now
  exact ⟨p, hrestart, hp, .inl ⟨stored, hfirst⟩⟩

/-- The newest file may end with an unreadable rest. -/
theorem Headed.restarts_torn (h : Headed cx cfg es p segs g header done ahead) {tail : Bytes}
    (htail : readFrame maxRecordLen tail = none) :
    Restarts cx cfg es
      (p.replica.store.disk.insert g.file (segmentBytes cx g.records ++ tail)) := by
  intro index now
  have hg : g ∈ segs ++ [g] := by simp
  have hser : ∀ r ∈ done ++ ahead, (cx.eventData.serialize r).isSome = true := by
    intro r hr
    apply h.files.files.serialized g hg
    rw [h.files.records]
    exact List.mem_cons_of_mem _ hr
  have hroom : (done ++ ahead).dropLast ≠ [] →
      (segmentBytes cx (header :: (done ++ ahead).dropLast)).length ≤ cfg.maxEventFileSize := by
    intro hne
    have hpart : header :: (done ++ ahead).dropLast <+: g.records := by
      rw [h.files.records]
      exact (List.prefix_cons_inj header).mpr (List.dropLast_prefix _)
    refine (length_segmentBytes_le hpart).trans (h.files.room ?_)
    intro hnil
    rw [hnil] at hne
    exact hne rfl
  obtain ⟨p', hrestart, hp, hheaded⟩ :=
    h.files.restart hser h.files.within hroom htail index now
  rw [← h.files.records] at hrestart
  exact ⟨p', hrestart, hp, .inr ⟨_, _, _, _, _, hheaded⟩⟩

/-- The record of a new event is there, and then an unreadable rest. -/
theorem Headed.restarts_recorded (h : Headed cx cfg es p segs g header done [])
    (hp : InStep cx es p) (hnext : es[p.executed]? = some e) (hx : NextEvent cx e p x)
    (hser : (cx.eventData.serialize x).isSome = true) {tail : Bytes}
    (htail : readFrame maxRecordLen tail = none) :
    Restarts cx cfg es
      (p.replica.store.disk.insert g.file (segmentBytes cx (g.records ++ [x]) ++ tail)) := by
  intro index now
  have hg : g ∈ segs ++ [g] := by simp
  have hrecords : g.records ++ [x] = header :: (done ++ [x]) := by
    rw [h.files.records, List.append_nil, List.cons_append]
  have hser' : ∀ r ∈ done ++ [x], (cx.eventData.serialize r).isSome = true := by
    intro r hr
    rcases List.mem_append.mp hr with hr | hr
    · apply h.files.files.serialized g hg
      rw [h.files.records, List.append_nil]
      exact List.mem_cons_of_mem _ hr
    · rw [List.mem_singleton.mp hr]
      exact hser
  have hwithin : eventsOf segs ++ (done ++ [x]) <+: acceptedEvents cx es := by
    have hwithin := hx.within hp hnext
    rwa [h.accepted, List.append_assoc] at hwithin
  -- The new event is the last one, which the new process drops, so the file is not full.
  have hroom : (done ++ [x]).dropLast ≠ [] →
      (segmentBytes cx (header :: (done ++ [x]).dropLast)).length ≤ cfg.maxEventFileSize := by
    rw [List.dropLast_concat]
    intro hne
    have hroom := h.files.room (by rwa [List.append_nil])
    rwa [h.files.records, List.append_nil] at hroom
  obtain ⟨p', hrestart, hp', hheaded⟩ := h.files.restart hser' hwithin hroom htail index now
  rw [← hrecords] at hrestart
  exact ⟨p', hrestart, hp', .inr ⟨_, _, _, _, _, hheaded⟩⟩

theorem Headed.find?_newest (h : Headed cx cfg es p segs g header done ahead) :
    p.replica.store.disk.find? g.file = some (segmentBytes cx g.records) :=
  h.files.files.contents g (by simp)

/-- A crash between two instances. -/
theorem Resumable.restarts (h : Resumable cx cfg es p) :
    Restarts cx cfg es p.replica.store.disk := by
  rcases h.directory with ⟨stored, hfirst⟩ | ⟨segs, g, header, done, ahead, hheaded⟩
  · rw [hfirst.disk]
    exact hfirst.holds.restarts
  · have hrestarts := hheaded.restarts_torn (readFrame_nil _)
    rwa [List.append_nil, insert_content hheaded.find?_newest] at hrestarts

/-! ## Executing -/

theorem resumable_init : Resumable cx cfg es {} := by
  refine ⟨⟨Nat.zero_le _, agrees_empty rfl⟩, .inl ⟨0, rfl, rfl, ?_, rfl, rfl, Nat.zero_le _,
    Nat.zero_le _, Nat.zero_le _, ?_, ?_⟩⟩
  · rfl
  · intro pre _ _
    exact Nat.zero_le _
  · intro pre y _ hlt
    exact absurd hlt (Nat.not_lt_zero _)

theorem Resumable.execute (h : Resumable cx cfg es p) (hes : Replayable cx es)
    (hnext : es[p.executed]? = some e) (hstorable : Storable cx cfg e p.replica) (now rand : Nat) :
    Resumable cx cfg es (p.next cx cfg now rand e) := by
  refine ⟨h.inStep.next hnext cfg now rand, ?_⟩
  rcases h.inStep.next_cases hnext cfg now rand with ⟨x, hx⟩ | ⟨hstore, haccepted, -⟩
  · rcases h.directory with ⟨stored, hfirst⟩ | ⟨segs, g, header, done, ahead, hheaded⟩
    · rcases hfirst.event hes h.inStep hnext hx hstorable now rand with hfirst' | hheaded
      · exact .inl hfirst'
      · obtain ⟨segs, g, header, hheaded⟩ := hheaded
        exact .inr ⟨_, _, _, _, _, hheaded⟩
    · cases ahead with
      | nil =>
        obtain ⟨_, _, _, _, hheaded'⟩ :=
          hheaded.event_new hes h.inStep hnext hx hstorable now rand
        exact .inr ⟨_, _, _, _, _, hheaded'⟩
      | cons y ahead =>
        exact .inr ⟨_, _, _, _, _, hheaded.event_ahead h.inStep hnext hx now rand⟩
  · rcases h.directory with ⟨stored, hfirst⟩ | ⟨segs, g, header, done, ahead, hheaded⟩
    · exact .inl ⟨stored, hfirst.same hstore haccepted⟩
    · exact .inr ⟨_, _, _, _, _, hheaded.same hstore haccepted⟩

/-! ## Crashing -/

/-- All writes of the next event have arrived. -/
theorem Resumable.restarts_written (h : Resumable cx cfg es p) (hes : Replayable cx es)
    (hnext : es[p.executed]? = some e) (hx : NextEvent cx e p x)
    (hstorable : Storable cx cfg e p.replica) :
    Restarts cx cfg es (diskWrites.applyAll p.replica.store.disk (p.writes cx cfg es)) := by
  have hrestarts := (h.execute hes hnext hstorable 0 0).restarts
  rwa [hx.next_eq, ← addEvent_disk, ← hx.writes_eq hnext] at hrestarts

/-- The writes of a new event: its record, or its record and a file switch. -/
theorem NextEvent.writes_cases (hx : NextEvent cx e p x) (hnext : es[p.executed]? = some e)
    (hstorable : Storable cx cfg e p.replica)
    (hnew : p.replica.store.checkpointData.find? x.gtid = none)
    (hroom : p.replica.store.checkpointData ≠ .empty →
      p.replica.store.manager.writer.offset ≤ cfg.maxEventFileSize)
    (hpath : p.replica.store.manager.writer.path ≠ genFileName x.instanceId) :
    p.writes cx cfg es =
        [.record .event p.replica.store.manager.writer.path p.replica.store.manager.writer.offset
          (frame (recordBytes cx x))] ∨
      ∃ header newFile, p.writes cx cfg es =
        eventAndSwitch p.replica.store.manager.writer (recordBytes cx x) (recordBytes cx header)
          newFile := by
  obtain ⟨hser, hswitch⟩ := hx.storable hnew hstorable
  rw [Process.recorded, writer_recordEvent hser] at hswitch
  rw [hx.writes_eq hnext]
  rcases Nat.lt_or_ge cfg.maxEventFileSize
      (p.replica.store.manager.writer.offset + (frame (recordBytes cx x)).length) with hfull | hfits
  · obtain ⟨header, hswitch⟩ := hswitch hfull
    obtain ⟨s', hmade⟩ := hswitch.made
    exact .inr ⟨header, _,
      addEventWrites_full hx.newer hnew hroom hser hfull hmade hswitch.serialized hpath⟩
  · exact .inl (addEventWrites_plain hx.newer hnew hroom hser hfits)

/-- A part of the record has arrived in the first file. -/
theorem FirstFile.restarts_cut (h : FirstFile cx cfg es p stored) (hp : InStep cx es p)
    (hnext : es[p.executed]? = some e) (hx : NextEvent cx e p x)
    (hser : (cx.eventData.serialize x).isSome = true) (k t : Nat) :
    Restarts cx cfg es (diskWrites.crashed p.replica.store.disk
      [.record .event p.replica.store.manager.writer.path p.replica.store.manager.writer.offset
        (frame (recordBytes cx x))] k t) := by
  have hwithin := hx.within hp hnext
  have hfind : p.replica.store.disk.find? (genFileName 0) =
      some ((segmentBytes cx (acceptedEvents cx es)).take stored) := by
    rw [h.disk, find?_firstFile]
  have hoffset : (segmentBytes cx (logAfter cx es p.executed).accepted).length ≤
      ((segmentBytes cx (acceptedEvents cx es)).take stored).length := by
    rw [List.length_take, Nat.min_eq_left h.holds.bound]
    exact h.behind
  rw [h.writer, crashed_record hfind hoffset, h.disk, firstFile_write hwithin h.behind]
  exact (h.holds.write hwithin h.behind h.room hser _).restarts

/-- A part of the record has arrived in a file with a header. -/
theorem Headed.restarts_cut (h : Headed cx cfg es p segs g header done []) (hp : InStep cx es p)
    (hnext : es[p.executed]? = some e) (hx : NextEvent cx e p x)
    (hser : (cx.eventData.serialize x).isSome = true) (k t : Nat) :
    Restarts cx cfg es (diskWrites.crashed p.replica.store.disk
      [.record .event p.replica.store.manager.writer.path p.replica.store.manager.writer.offset
        (frame (recordBytes cx x))] k t) := by
  rw [h.writer, Segment.endPos, crashed_record h.find?_newest (Nat.le_refl _), writeAt_length]
  generalize hn : (if k = 0 then t else (frame (recordBytes cx x)).length) = n
  rcases Nat.lt_or_ge n (frame (recordBytes cx x)).length with hcut | hwhole
  · exact h.restarts_torn (readFrame_take hcut)
  · have hrestarts := h.restarts_recorded hp hnext hx hser (readFrame_nil _)
    rw [segmentBytes_append, segmentBytes_cons, segmentBytes_nil, List.append_nil,
      List.append_nil] at hrestarts
    rwa [List.take_of_length_le hwhole]

/-- A part of the footer has arrived behind the record. -/
theorem Headed.crashed_footer (h : Headed cx cfg es p segs g header done ahead)
    (footer newFile : Bytes) (t : Nat) :
    diskWrites.crashed p.replica.store.disk
        (eventAndSwitch p.replica.store.manager.writer (recordBytes cx x) footer newFile) 1 t =
      p.replica.store.disk.insert g.file
        (segmentBytes cx (g.records ++ [x]) ++ (frame footer).take t) := by
  have hwritten : diskWrites.applyAll p.replica.store.disk
      [.record .event g.file (segmentBytes cx g.records).length (frame (recordBytes cx x))] =
      p.replica.store.disk.insert g.file (segmentBytes cx (g.records ++ [x])) := by
    have hone := @crashed_record _ _ _ h.find?_newest _ (Nat.le_refl _) .event
      (frame (recordBytes cx x)) 1 0
    rw [diskWrites.crashed_of_length_le _ (by simp)] at hone
    rw [hone, writeAt_length, if_neg Nat.one_ne_zero, List.take_length, segmentBytes_append,
      segmentBytes_cons, segmentBytes_nil, List.append_nil]
  rw [crashed_eventAndSwitch_one, h.writer, Segment.endPos, ← length_segmentBytes_concat, hwritten,
    crashed_record (SortedMap.find?_insert_self ..) (Nat.le_refl _), writeAt_length, if_pos rfl,
    SortedMap.insert_insert]

/-- A crash while the next event is written to the first file. -/
theorem FirstFile.crash (h : FirstFile cx cfg es p stored) (hes : Replayable cx es)
    (hp : InStep cx es p) (hnext : es[p.executed]? = some e) (hx : NextEvent cx e p x)
    (hstorable : Storable cx cfg e p.replica) {k t : Nat} (hsafe : SafeCrash cx cfg es p k t) :
    Restarts cx cfg es (p.crashedDisk cx cfg es k t) := by
  have hnew : p.replica.store.checkpointData.find? x.gtid = none := by rw [h.preloaded]; rfl
  have hser := (hx.storable hnew hstorable).1
  have hpath : p.replica.store.manager.writer.path ≠ genFileName x.instanceId := by
    rw [h.writer, Ne, genFileName_inj]
    exact (Nat.zero_lt_of_lt hx.newer).ne
  have hcut := h.restarts_cut hp hnext hx hser
  rw [Process.crashedDisk]
  rcases hx.writes_cases hnext hstorable hnew (fun hne => absurd h.preloaded hne) hpath with
    hplain | ⟨header, newFile, hfull⟩
  · rw [hplain]
    exact hcut k t
  · by_cases hheader : Complete .header (p.writes cx cfg es) k t
    · have hall := (Resumable.mk hp (.inl ⟨stored, h⟩)).restarts_written hes hnext hx hstorable
      rw [hfull] at hheader hall ⊢
      rwa [crashed_of_complete_header hheader]
    · -- Nothing of the footer has arrived.
      have hbegun : ¬ Begun .footer (p.writes cx cfg es) k t :=
        fun hbegun => hheader (hsafe.2 h.checkpointId hbegun)
      rw [hfull, begun_footer_iff, not_or, not_and] at hbegun
      rw [hfull]
      match k with
      | 0 =>
        rw [crashed_eventAndSwitch_zero]
        exact hcut 0 t
      | 1 =>
        obtain rfl : t = 0 := Nat.eq_zero_of_not_pos (hbegun.2 rfl)
        rw [crashed_eventAndSwitch_one]
        exact hcut 1 0
      | k + 2 => exact absurd (by omega) hbegun.1

/-- A crash while the next event is written to a file with a header. -/
theorem Headed.crash (h : Headed cx cfg es p segs g header done []) (hes : Replayable cx es)
    (hp : InStep cx es p) (hnext : es[p.executed]? = some e) (hx : NextEvent cx e p x)
    (hstorable : Storable cx cfg e p.replica) {k t : Nat} (hsafe : SafeCrash cx cfg es p k t) :
    Restarts cx cfg es (p.crashedDisk cx cfg es k t) := by
  have hnew := h.not_found hes hp hnext hx
  have hser := (hx.storable hnew hstorable).1
  have hpath : p.replica.store.manager.writer.path ≠ genFileName x.instanceId := by
    rw [h.writer]
    exact fun heq => absurd (genFileName_inj.mp heq) (h.name_lt hp hx).ne
  have hcut := h.restarts_cut hp hnext hx hser
  rw [Process.crashedDisk]
  rcases hx.writes_cases hnext hstorable hnew h.room hpath with
    hplain | ⟨footer, newFile, hfull⟩
  · rw [hplain]
    exact hcut k t
  · by_cases hheader : Complete .header (p.writes cx cfg es) k t
    · have hall := (Resumable.mk hp (.inr ⟨_, _, _, _, _, h⟩)).restarts_written hes hnext hx
        hstorable
      rw [hfull] at hheader hall ⊢
      rwa [crashed_of_complete_header hheader]
    · -- The footer is cut off.
      have hfooter : ¬ Complete .footer (p.writes cx cfg es) k t :=
        fun hfooter => hheader (hsafe.1 hfooter)
      rw [hfull, complete_footer_iff, not_or, not_and, Nat.not_le] at hfooter
      rw [hfull]
      match k with
      | 0 =>
        rw [crashed_eventAndSwitch_zero]
        exact hcut 0 t
      | 1 =>
        rw [h.crashed_footer]
        exact h.restarts_recorded hp hnext hx hser (readFrame_take (hfooter.2 rfl))
      | k + 2 => exact absurd (by omega) hfooter.1

/-- A permitted crash at any point. -/
theorem Resumable.crash (h : Resumable cx cfg es p) (hes : Replayable cx es) {k t : Nat}
    (hstorable : ∀ e ∈ es[p.executed]?, Storable cx cfg e p.replica)
    (hsafe : SafeCrash cx cfg es p k t) : Restarts cx cfg es (p.crashedDisk cx cfg es k t) := by
  have hquiet : p.writes cx cfg es = [] → Restarts cx cfg es (p.crashedDisk cx cfg es k t) := by
    intro hwrites
    rw [Process.crashedDisk, hwrites, diskWrites.crashed_of_length_le _ (Nat.zero_le _)]
    exact h.restarts
  cases hnext : es[p.executed]? with
  | none =>
    apply hquiet
    rw [Process.writes, hnext]
  | some e =>
    have hstorable := hstorable e hnext
    rcases h.inStep.next_cases hnext cfg 0 0 with ⟨x, hx⟩ | ⟨-, -, hwrites⟩
    · rcases h.directory with ⟨stored, hfirst⟩ | ⟨segs, g, header, done, ahead, hheaded⟩
      · exact hfirst.crash hes h.inStep hnext hx hstorable hsafe
      · cases ahead with
        | nil => exact hheaded.crash hes h.inStep hnext hx hstorable hsafe
        | cons y ahead =>
          -- The event is in the file already.
          apply hquiet
          obtain rfl := hheaded.next_ahead h.inStep hnext hx
          rw [hx.writes_eq hnext, addEventWrites_found (hheaded.aheadKnown x List.mem_cons_self)]
    · apply hquiet
      rw [Process.writes, hnext]
      exact hwrites

/-! ## Runs -/

/-- A permitted action keeps the situation; a crash is always followed by a start. -/
theorem Resumable.step (h : Resumable cx cfg es p) (hes : Replayable cx es) {a : ProcessAction}
    (hok : CrashOk cx cfg es p a) (hleft : p.executed < es.length ∨ ∃ k t index now,
      a = .crash k t index now) :
    ∃ p', (crashSystem cx cfg es).step p a = some p' ∧ Resumable cx cfg es p' := by
  cases a with
  | execute now rand =>
    rcases hleft with hlt | ⟨k, t, index, now', heq⟩
    · have hnext : es[p.executed]? = some es[p.executed] := List.getElem?_eq_getElem hlt
      refine ⟨p.next cx cfg now rand es[p.executed], ?_,
        h.execute hes hnext (hok.1 _ hnext) now rand⟩
      show es[p.executed]?.map _ = _
      rw [hnext]
      rfl
    · cases heq
  | crash k t index now => exact h.crash hes hok.1 hok.2 index now

theorem resumable_of_reachable (hes : Replayable cx es)
    (h : ReachableBy (crashSystem cx cfg es) (CrashOk cx cfg es) p) : Resumable cx cfg es p := by
  refine ReachableBy.invariant resumable_init ?_ h
  intro p a p' hp hok hstep
  have hleft : p.executed < es.length ∨ ∃ k t index now, a = .crash k t index now := by
    cases a with
    | execute now rand =>
      obtain ⟨e, hnext, -⟩ := Option.map_eq_some_iff.mp hstep
      exact .inl (List.getElem?_eq_some_iff.mp hnext).1
    | crash k t index now => exact .inr ⟨k, t, index, now, rfl⟩
  obtain ⟨p'', hstep', hp''⟩ := hp.step hes hok hleft
  rw [hstep] at hstep'
  cases hstep'
  exact hp''

/-- When all instances have been executed, the files hold the accepted events. -/
theorem Resumable.storedEvents_eq (h : Resumable cx cfg es p) (hall : p.executed = es.length) :
    storedEvents cx p.replica.store = acceptedEvents cx es ∧
      ∀ x ∈ acceptedEvents cx es, (cx.eventData.serialize x).isSome = true := by
  have haccepted : (logAfter cx es p.executed).accepted = acceptedEvents cx es := by
    rw [hall, logAfter_length]
    rfl
  rcases h.directory with ⟨stored, hfirst⟩ | ⟨segs, g, header, done, ahead, hheaded⟩
  · have hbehind := hfirst.behind
    rw [haccepted] at hbehind
    have hserialized : ∀ x ∈ acceptedEvents cx es, (cx.eventData.serialize x).isSome = true :=
      fun x hx => hfirst.holds.serialized_of_le List.prefix_rfl hbehind hx
    refine ⟨?_, hserialized⟩
    have hfiles := (firstFile_rep hserialized).1
    have hdisk := hfirst.disk
    rw [List.take_of_length_le hbehind] at hdisk
    rw [← hdisk, ← hfirst.fileList] at hfiles
    rw [hfiles.storedEvents_eq]
    exact eventsOf_of_gtids (@ordered_executeAll cx es).gtids 0
  · -- No event is ahead of the process.
    have hevents := hheaded.files.eventsOf_last hheaded.files.within
    rw [← hheaded.files.records] at hevents
    have hnone : ahead = [] := by
      have hwithin := hheaded.files.within
      rw [← haccepted, hheaded.accepted, ← List.append_assoc] at hwithin
      have hlen := hwithin.length_le
      rw [List.length_append] at hlen
      exact List.eq_nil_of_length_eq_zero (by omega)
    have hstored : eventsOf (segs ++ [g]) = acceptedEvents cx es := by
      rw [eventsOf_append, hevents, hnone, List.append_nil, ← hheaded.accepted, haccepted]
    refine ⟨?_, ?_⟩
    · rw [hheaded.files.files.storedEvents_eq, hstored]
    · intro x hx
      rw [← hstored, eventsOf] at hx
      obtain ⟨g', hg', hx'⟩ := List.mem_flatMap.mp (List.mem_filter.mp hx).1
      exact hheaded.files.files.serialized g' hg' x hx'

/-- Two replicas in the state of one log that have stored its events are the same. -/
theorem sameState_of_agrees {r r' : Replica} {l : ReplicatedLog} (h : Agrees r l)
    (h' : Agrees r' l) (hevents : storedEvents cx r.store = storedEvents cx r'.store) :
    SameState cx r r' := by
  have hnewest := h.table.newest.trans h'.table.newest.symm
  have hgtid := congrArg EventDataInfo.gtid hnewest
  have hchecksum := congrArg EventDataInfo.checksum hnewest
  have hmaster := h.master.trans h'.master.symm
  have hsvrId := congrArg MasterInfo.svrId hmaster
  have hversion := congrArg MasterInfo.version hmaster
  refine ⟨hevents, ⟨hgtid, hchecksum⟩, ?_, hsvrId, hversion⟩
  intro uuid
  have hlast := congrArg (Option.map EventDataInfo.gtid)
    ((h.table.last uuid).trans (h'.table.last uuid).symm)
  rwa [Option.map_map, Option.map_map] at hlast

/-- In every run with permitted crashes, every crash is followed by a start, and a process that has
executed all instances is in the state of a replica that never crashed. -/
theorem crash_recovery_refines (hes : Replayable cx es)
    (h : ReachableBy (crashSystem cx cfg es) (CrashOk cx cfg es) p) :
    (∀ k t index now, CrashOk cx cfg es p (.crash k t index now) →
        ((crashSystem cx cfg es).step p (.crash k t index now)).isSome = true) ∧
      (p.executed = es.length →
        ∀ env : LocalEnv, SameState cx p.replica (executeAll cx env es).2) := by
  have hp := resumable_of_reachable hes h
  refine ⟨?_, ?_⟩
  · intro k t index now hok
    obtain ⟨p', hstep, -⟩ := hp.step hes hok (.inr ⟨k, t, index, now, rfl⟩)
    rw [hstep]
    rfl
  · intro hall env
    obtain ⟨hstored, hserialized⟩ := hp.storedEvents_eq hall
    have hagrees := hp.inStep.agrees
    rw [hall, logAfter_length] at hagrees
    have hrefines := (@executeAll_refines cx env es).2
    apply sameState_of_agrees hagrees (executeAll_agrees env es)
    rw [hstored, hrefines.storedEvents_eq]
    exact (List.filter_eq_self.mpr hserialized).symm

/-! ## Two runs of one sequence -/

def masterValue (svrId version : Nat) : Bytes :=
  (wireCodecs.masterInfo.serialize
    { port := some 6000, svrId := svrId, version := version, updateTime := 1467000000,
      lease := 60 }).getD []

def eventValue (currentGtid eventGtid : Bytes) (svrid oldChecksum : Nat) (buffer : Bytes) : Bytes :=
  (wireCodecs.paxosEventData.serialize
    { currentGtid := currentGtid, eventGtid := eventGtid, svrid := svrid, buffer := buffer,
      checksum := getCheckSum oldChecksum buffer }).getD []

/-- Node 1 is elected and sends two events. The event of node 2 is refused, then node 2 is elected
and sends one. The GTIDs are `a:1`, `a:2`, `b:1` and `a:3`. -/
def takeoverEntries : List Entry :=
  let first := getCheckSum 0 [1]
  let second := getCheckSum first [2]
  [⟨1, .master, masterValue 1 0⟩,
    ⟨2, .event, eventValue [] [97, 58, 49] 1 0 [1]⟩,
    ⟨3, .event, eventValue [97, 58, 49] [97, 58, 50] 1 first [2]⟩,
    ⟨4, .event, eventValue [97, 58, 50] [98, 58, 49] 2 second [3]⟩,
    ⟨5, .master, masterValue 2 1⟩,
    ⟨6, .event, eventValue [97, 58, 50] [97, 58, 51] 2 second [4]⟩]

/-- Every event fills its file. -/
def smallFiles : CrashConfig where
  engineSvrID := 1
  maxEventFileSize := 0
  leaseTime := 60
  extLeaseTime := 30

def executeNext : ProcessAction :=
  .execute 1467000000 0

def crashAfter (k t : Nat) : ProcessAction :=
  .crash k t .empty 1467000000

/-- Crashes in the first record, in a footer and in a record of a file with a header. -/
def permittedRun : List ProcessAction :=
  [executeNext, crashAfter 0 5, executeNext, executeNext, crashAfter 1 3, executeNext, executeNext,
    executeNext, crashAfter 0 9, executeNext, executeNext, executeNext]

theorem crash_recovery_refines_takeover :
    Replayable wireCodecs takeoverEntries ∧
      ∃ p, checkedRun (crashSystem wireCodecs smallFiles takeoverEntries)
          (CrashOk wireCodecs smallFiles takeoverEntries) {} permittedRun = some p ∧
        p.executed = takeoverEntries.length ∧
        ∀ env : LocalEnv,
          SameState wireCodecs p.replica (executeAll wireCodecs env takeoverEntries).2 := by
  have hes : Replayable wireCodecs takeoverEntries :=
    ⟨by decide +kernel, by decide +kernel, by decide +kernel⟩
  have hrun : (checkedRun (crashSystem wireCodecs smallFiles takeoverEntries)
      (CrashOk wireCodecs smallFiles takeoverEntries) {} permittedRun).map Process.executed =
      some takeoverEntries.length := by
    decide +kernel
  obtain ⟨p, hp, hall⟩ := Option.map_eq_some_iff.mp hrun
  exact ⟨hes, p, hp, hall,
    (crash_recovery_refines hes (ReachableBy.checkedRun permittedRun .init hp)).2 hall⟩

/-- The first crash is after the complete footer behind the event of instance 3. The new process
continues in the old file, and instance 5 changes the master before the file is switched for
instance 6, so that the header of the new file has the master of instance 5 and the instance id 3.
The second crash is after that header. The last process executes instance 4 with the wrong master.
-/
def footerRun : List ProcessAction :=
  [executeNext, executeNext, crashAfter 2 0, executeNext, executeNext, executeNext, crashAfter 3 0,
    executeNext, executeNext, executeNext]

/-- A large event fills the first file; the next two events have the same GTID `a:2`. -/
def repeatedEntries : List Entry :=
  let large := List.replicate 160 7
  let first := getCheckSum 0 large
  let second := getCheckSum first [2]
  [⟨1, .master, masterValue 1 0⟩,
    ⟨2, .event, eventValue [] [97, 58, 49] 1 0 large⟩,
    ⟨3, .event, eventValue [97, 58, 49] [97, 58, 50] 1 first [2]⟩,
    ⟨4, .event, eventValue [97, 58, 50] [97, 58, 50] 1 second [3]⟩]

def largeFiles : CrashConfig :=
  { smallFiles with maxEventFileSize := 160 }

/-- The new process keeps the place of the first event with the GTID, and drops the second one. -/
def repeatedRun : List ProcessAction :=
  [executeNext, executeNext, executeNext, executeNext, crashAfter 0 0, executeNext, executeNext]

/-- A run that ends with other stored events does not end in the same state. -/
theorem exists_differing_run {cfg : CrashConfig} {es : List Entry} {actions : List ProcessAction}
    {ids ids' : List Nat} {env : LocalEnv}
    (hrun : (run (crashSystem wireCodecs cfg es) {} actions).map (fun p => (p.executed,
      (storedEvents wireCodecs p.replica.store).map EventData.instanceId)) = some (es.length, ids))
    (hwhole : (storedEvents wireCodecs (executeAll wireCodecs env es).2.store).map
      EventData.instanceId = ids') (hne : ids ≠ ids') :
    ∃ p, run (crashSystem wireCodecs cfg es) {} actions = some p ∧ p.executed = es.length ∧
      ¬ SameState wireCodecs p.replica (executeAll wireCodecs env es).2 := by
  obtain ⟨p, hp, hvalues⟩ := Option.map_eq_some_iff.mp hrun
  obtain ⟨hall, hstored⟩ := Prod.mk.inj hvalues
  refine ⟨p, hp, hall, ?_⟩
  intro hsame
  rw [hsame.events, hwhole] at hstored
  exact hne hstored.symm

theorem crash_recovery_differs :
    (Replayable wireCodecs takeoverEntries ∧
      ∃ p, run (crashSystem wireCodecs smallFiles takeoverEntries) {} footerRun = some p ∧
        p.executed = takeoverEntries.length ∧
        ¬ SameState wireCodecs p.replica
          (executeAll wireCodecs (smallFiles.localEnv 1467000000 0) takeoverEntries).2) ∧
    (checkedRun (crashSystem wireCodecs largeFiles repeatedEntries)
        (CrashOk wireCodecs largeFiles repeatedEntries) {} repeatedRun).isSome = true ∧
      ∃ p, run (crashSystem wireCodecs largeFiles repeatedEntries) {} repeatedRun = some p ∧
        p.executed = repeatedEntries.length ∧
        ¬ SameState wireCodecs p.replica
          (executeAll wireCodecs (largeFiles.localEnv 1467000000 0) repeatedEntries).2 := by
  refine ⟨⟨⟨by decide +kernel, by decide +kernel, by decide +kernel⟩, ?_⟩, by decide +kernel, ?_⟩
  · apply @exists_differing_run smallFiles takeoverEntries footerRun [2, 3, 4] [2, 3, 6]
    · decide +kernel
    · decide +kernel
    · decide
  · apply @exists_differing_run largeFiles repeatedEntries repeatedRun [2, 3] [2, 3, 4]
    · decide +kernel
    · decide +kernel
    · decide

end PhxSql.Paxos
