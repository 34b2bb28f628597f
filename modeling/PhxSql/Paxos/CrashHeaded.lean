import PhxSql.Paxos.CrashSteps

/-!
# Events in a file with a header

An event that is ahead of the process in the newest file is found there and not written again
(`Headed.event_ahead`). When no event is ahead, the next one is new: it is written at the end of the
file, and the file is switched if it is full then (`Headed.event_new`).
-/

set_option autoImplicit false

namespace PhxSql.Paxos

open PhxSql.Proto PhxSql.Store PhxSql.Lib PhxSql.Lib.Transition PhxSql.Gtid

variable {cx : Codecs} {cfg : CrashConfig} {es : List Entry} {p : Process} {e : Entry}
  {x : EventData} {segs : List Segment} {g : Segment} {header : EventData}
  {done ahead : List EventData}

/-- Only the store and the accepted events matter. -/
theorem Headed.same (h : Headed cx cfg es p segs g header done ahead) {p' : Process}
    (hstore : p'.replica.store = p.replica.store)
    (haccepted : (logAfter cx es p'.executed).accepted = (logAfter cx es p.executed).accepted) :
    Headed cx cfg es p' segs g header done ahead := by
  refine {
    files := ?files, writer := ?writer, checkpointId := ?checkpointId, accepted := ?accepted,
    aheadKnown := ?aheadKnown, known := ?known }
  case files =>
    rw [hstore]
    exact h.files
  case writer =>
    rw [hstore]
    exact h.writer
  case checkpointId =>
    rw [hstore]
    exact h.checkpointId
  case accepted =>
    rw [haccepted]
    exact h.accepted
  case aheadKnown =>
    rw [hstore]
    exact h.aheadKnown
  case known =>
    rw [hstore]
    exact h.known

theorem Ordered.newest_mono {l l' : ReplicatedLog} (h : Ordered l')
    (hle : l.accepted <+: l'.accepted) : l.newest.instanceId ≤ l'.newest.instanceId := by
  cases hlast : l.accepted.getLast? with
  | none =>
    rw [ReplicatedLog.newest, hlast]
    exact Nat.zero_le _
  | some x =>
    have hx := h.le_newest (hle.subset (List.mem_of_getLast? hlast))
    rw [ReplicatedLog.newest, hlast]
    exact hx

/-- The header of a file is not one of its events. -/
theorem HeadedFiles.eventsOf_last {d : Disk} {fs : FileSet} {events events' : List EventData}
    (h : HeadedFiles cx cfg es d fs segs g header events)
    (hwithin : eventsOf segs ++ events' <+: acceptedEvents cx es) :
    eventsOf [{ g with records := header :: events' }] = events' := by
  obtain ⟨table, master, hloadable, -⟩ := h.memory.loads
  have hgtids : ∀ x ∈ events', x.gtid ≠ [] := fun x hx =>
    (@ordered_executeAll cx es).gtids x (hwithin.subset (List.mem_append_right _ hx))
  have hhead : eventsOf [{ g with records := header :: events' }] =
      eventsOf [{ id := g.id, records := events' }] := by
    simp [eventsOf, hloadable.gtid]
  rw [hhead, eventsOf_of_gtids hgtids]

/-- A new file gets a name after that of the newest one. -/
theorem Headed.name_lt (h : Headed cx cfg es p segs g header done ahead) (hp : InStep cx es p)
    (hx : NextEvent cx e p x) : g.id < x.instanceId := by
  have hprefix : (logAfter cx es (replayStart es header.instanceId)).accepted <+:
      (logAfter cx es p.executed).accepted := by
    rw [h.files.before, h.accepted]
    exact List.prefix_append ..
  have hle := ordered_logAfter.newest_mono hprefix
  rw [← h.files.memory.instanceId, ← hp.agrees.lastInstanceID, ← h.files.name] at hle
  exact Nat.lt_of_le_of_lt hle hx.newer

/-! ## An event that is there already -/

/-- The next event is the first one ahead. -/
theorem Headed.next_ahead {y : EventData} (h : Headed cx cfg es p segs g header done (y :: ahead))
    (hp : InStep cx es p) (hnext : es[p.executed]? = some e) (hx : NextEvent cx e p x) : x = y := by
  have hnew := hx.within hp hnext
  rw [h.accepted] at hnew
  have hold : eventsOf segs ++ done ++ [y] <+: acceptedEvents cx es := by
    refine List.IsPrefix.trans ⟨ahead, ?_⟩ h.files.within
    simp
  have heq := (List.prefix_of_prefix_length_le hnew hold (by simp)).eq_of_length (by simp)
  exact List.head_eq_of_cons_eq (List.append_cancel_left heq)

theorem Headed.event_ahead {y : EventData} (h : Headed cx cfg es p segs g header done (y :: ahead))
    (hp : InStep cx es p) (hnext : es[p.executed]? = some e) (hx : NextEvent cx e p x)
    (now rand : Nat) :
    Headed cx cfg es (p.next cx cfg now rand e) segs g header (done ++ [y]) ahead := by
  obtain rfl := h.next_ahead hp hnext hx
  obtain ⟨info, hinfo⟩ := Option.isSome_iff_exists.mp (h.aheadKnown x List.mem_cons_self)
  have hcheck : realCheckGTID cx cfg.maxEventFileSize p.replica.master p.replica.store x.gtid =
      (some info, p.replica.store) := by
    simp [realCheckGTID, hinfo]
  have hsplit : done ++ [x] ++ ahead = done ++ x :: ahead := by simp
  rw [hx.next_eq, addEvent_eq hx.newer hcheck]
  refine ⟨?_, h.writer, h.checkpointId, ?_, ?_, ?_⟩
  · rw [hsplit]
    exact h.files
  · rw [hx.log_eq hp hnext]
    show (logAfter cx es p.executed).accepted ++ [x] = _
    rw [h.accepted, List.append_assoc]
  · intro z hz
    exact h.aheadKnown z (List.mem_cons_of_mem _ hz)
  · rw [hsplit]
    exact h.known

/-! ## A new event -/

theorem Headed.not_found (h : Headed cx cfg es p segs g header done [])
    (hes : Replayable cx es) (hp : InStep cx es p) (hnext : es[p.executed]? = some e)
    (hx : NextEvent cx e p x) : p.replica.store.checkpointData.find? x.gtid = none := by
  cases hfound : p.replica.store.checkpointData.find? x.gtid with
  | none => rfl
  | some info =>
    exfalso
    obtain ⟨y, hy, hgtid⟩ := h.known x.gtid (by rw [hfound]; rfl)
    rw [List.append_nil] at hy
    -- No two accepted events have the same GTID.
    have hnodup := hes.gtids
    obtain ⟨rest, hrest⟩ := hx.within hp hnext
    rw [← hrest, h.accepted] at hnodup
    simp only [List.map_append, List.append_assoc] at hnodup
    have hdone := (List.nodup_append.mp (List.nodup_append.mp hnodup).2.1).2.2
    exact hdone y.gtid (List.mem_map_of_mem hy) x.gtid (by simp) hgtid

/-- When the process keeps places from its start, there is room in the file. -/
theorem Headed.room (h : Headed cx cfg es p segs g header done [])
    (hne : p.replica.store.checkpointData ≠ .empty) :
    p.replica.store.manager.writer.offset ≤ cfg.maxEventFileSize := by
  cases hentries : p.replica.store.checkpointData.entries with
  | nil => exact absurd (SortedMap.ext_entries hentries) hne
  | cons entry rest =>
    have hfound : p.replica.store.checkpointData.find? entry.1 = some entry.2 :=
      SortedMap.find?_eq_some_iff.mpr ⟨entry.1, by rw [hentries]; exact List.mem_cons_self, rfl⟩
    obtain ⟨y, hy, -⟩ := h.known entry.1 (by rw [hfound]; rfl)
    rw [h.writer]
    exact h.files.room (List.ne_nil_of_mem hy)

/-- The newest file after the record of a new event. -/
theorem Headed.files_recorded (h : Headed cx cfg es p segs g header done [])
    (hser : (cx.eventData.serialize x).isSome = true) :
    FilesRep cx (p.recorded cx x).disk (p.recorded cx x).manager.fileList
        (segs ++ [{ g with records := g.records ++ [x] }]) ∧
      NoOthers (p.recorded cx x).disk (segs ++ [{ g with records := g.records ++ [x] }]) ∧
      (p.recorded cx x).manager.writer =
        Segment.endPos cx { g with records := g.records ++ [x] } := by
  obtain ⟨hfiles, hwriter, -⟩ := h.files.files.write h.writer x
  have hadd : g.add cx x = { g with records := g.records ++ [x] } := by
    rw [Segment.add, if_pos hser]
  rw [hadd] at hfiles hwriter
  refine ⟨hfiles, ?_, hwriter⟩
  have hdisk := @disk_recordEvent cx { p.replica.store with checkpointData := .empty } x.gtid x hser
  rw [Process.recorded, hdisk]
  simp only [h.writer]
  exact noOthers_setLast h.files.only _ _

/-- The process writes a new event and switches the file if it is full then. -/
theorem Headed.event_new (h : Headed cx cfg es p segs g header done []) (hes : Replayable cx es)
    (hp : InStep cx es p) (hnext : es[p.executed]? = some e) (hx : NextEvent cx e p x)
    (hstorable : Storable cx cfg e p.replica) (now rand : Nat) :
    ∃ segs' g' header' done',
      Headed cx cfg es (p.next cx cfg now rand e) segs' g' header' done' [] := by
  have hnew := h.not_found hes hp hnext hx
  obtain ⟨hser, hswitch⟩ := hx.storable hnew hstorable
  obtain ⟨hfiles, honly, hwriter⟩ := h.files_recorded hser
  have hlog := hx.log_eq hp hnext
  have hrecords : g.records ++ [x] = header :: (done ++ [x]) := by
    rw [h.files.records, List.append_nil, List.cons_append]
  have hwithin : eventsOf segs ++ (done ++ [x]) <+: acceptedEvents cx es := by
    have hwithin := hx.within hp hnext
    rwa [h.accepted, List.append_assoc] at hwithin
  rw [hx.next_recorded hnew h.room]
  by_cases hfits : (segmentBytes cx (g.records ++ [x])).length ≤ cfg.maxEventFileSize
  · -- There is room for the next event.
    have hkeep := @checkAndSwitchFile_of_le cx cfg.maxEventFileSize (p.recorded cx x)
      (by rw [hwriter]; exact hfits) p.replica.master
    rw [hkeep]
    refine ⟨segs, { g with records := g.records ++ [x] }, header, done ++ [x],
      ⟨hfiles, honly, ?_, h.files.name, h.files.small, h.files.memory, h.files.before, ?_, ?_⟩,
      hwriter, h.checkpointId, ?_, ?_, ?_⟩
    · rw [List.append_nil]
      exact hrecords
    · rw [List.append_nil]
      exact hwithin
    · intro _
      exact hfits
    · rw [hlog]
      show (logAfter cx es p.executed).accepted ++ [x] = _
      rw [h.accepted, List.append_assoc]
    · intro y hy
      cases hy
    · intro gtid hgtid
      cases hgtid
  · have hover : cfg.maxEventFileSize < (p.recorded cx x).manager.writer.offset := by
      rw [hwriter]
      exact Nat.lt_of_not_le hfits
    obtain ⟨header', hswitch⟩ := hswitch hover
    refine ⟨_, _, _, _,
      hx.headed hes hp hnext hswitch hfiles honly hwriter hover (h.name_lt hp hx) ?_⟩
    have hevents := h.files.eventsOf_last hwithin
    rw [hrecords, eventsOf_append, hevents, h.accepted, List.append_assoc]

end PhxSql.Paxos
