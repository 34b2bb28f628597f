import PhxSql.Store.SignUp

/-!
# The stream of events after a reposition

`ReSet` puts the reader at a stored event, and calls of `GetEvent` then take one event after another
while `AddEvent` adds more, ends files and opens new ones. Whatever the order of the calls, the
events that are returned are those that were stored from the named one on, in the order in which
they were accepted (`getEvent_stream`).

The lookup compares GTIDs as the index does, by UUID and number. An event is `Named` by its GTID if
no other accepted event compares equal to it. A call of `GetEvent` that may wait decides what it
returns before it waits.
-/

set_option autoImplicit false

namespace PhxSql.Store

open PhxSql.Proto PhxSql.Lib PhxSql.Gtid

variable {cx : Codecs}

/-! ## Finding an event by its GTID -/

/-- A stored event that the index can tell from the other accepted events and from the UUID table.
-/
structure Named (h : History) (x : AcceptedEvent) : Prop where
  kept : x ∈ h.kept
  unique : ∀ y ∈ h.accepted, gtidRank y.data.gtid = gtidRank x.data.gtid → y = x
  key : gtidRank x.data.gtid ≠ gtidRank getKeyForUUID

/-- The index has the places of the events that are named by their GTIDs. -/
def NamedIndexed (h : History) : Prop :=
  ∀ x, Named h x → (x.data.gtid, .info x.info) ∈ h.store.index.entries

/-- Deletion leaves the entries of events that compare equal to no deleted one. -/
theorem NamedIndexed.deleted {names : Bytes → Prop} {h : History} {segs : List Segment}
    (hi : NamedIndexed h) (hinv : HistoryInv cx h segs) {s' : EventStorage} {files : List Bytes}
    (hd : Deleted cx names h.store s' segs files) :
    NamedIndexed { h with store := s', deleted := h.deleted ++ files } := by
  intro x hx
  obtain ⟨hacc, hpath⟩ := History.mem_kept.mp hx.kept
  simp only [List.mem_append, not_or] at hpath
  rw [hd.index]
  refine ⟨hi x ⟨History.mem_kept.mpr ⟨hacc, hpath.1⟩, hx.unique, hx.key⟩, ?_⟩
  intro g hg hfile r hr hgtid hrank
  obtain ⟨y, hy, rfl, hyfile⟩ := hinv.accepted_of_record hg hr hgtid
  -- The deleted event would be the named one, which is stored.
  have heq := hx.unique y hy hrank.symm
  apply hpath.2
  rw [← heq, hyfile]
  exact hfile

/-- A new event gets an entry and leaves those of the events it does not compare equal to. -/
theorem NamedIndexed.added {h : History} {segs : List Segment} (hi : NamedIndexed h)
    (hinv : HistoryInv cx h segs) {data : EventData} (hid : h.store.lastInstanceID < data.instanceId)
    {s' : EventStorage} (hframe : AddFrame h.store s' data.gtid data h.store.manager.writer) :
    NamedIndexed { h with
      store := s'
      accepted := h.accepted ++ [{ place := h.store.manager.writer, data := data }] } := by
  intro x hx
  obtain ⟨hacc, hpath⟩ := History.mem_kept.mp hx.kept
  rcases List.mem_append.mp hacc with hold | hnew
  · have hne : gtidRank x.data.gtid ≠ gtidRank data.gtid := by
      intro hrank
      have heq := hx.unique { place := h.store.manager.writer, data := data } (by simp) hrank.symm
      have hle := hinv.le_lastInstanceID hold
      rw [← heq] at hle
      exact Nat.not_lt.mpr hle hid
    have hentry := hi x ⟨History.mem_kept.mpr ⟨hold, hpath⟩,
      fun y hy => hx.unique y (List.mem_append_left _ hy), hx.key⟩
    exact hframe.mem_index_of (.inr ⟨hentry, hne⟩) hx.key
  · rw [List.mem_singleton.mp hnew]
    rw [List.mem_singleton.mp hnew] at hx
    exact hframe.mem_index_of (.inl rfl) hx.key

theorem NamedIndexed.stepped {h h' : History} {segs segs' : List Segment} (hi : NamedIndexed h)
    (hinv : HistoryInv cx h segs) {a : StoreAction} (hs : Stepped cx h segs a h' segs') :
    NamedIndexed h' := by
  cases hs with
  | rejected => exact hi
  | looked hl =>
    intro x hx
    rw [hl.index]
    exact hi x ⟨hx.kept, hx.unique, hx.key⟩
  | deleted hd => exact hi.deleted hinv hd
  | added hid hframe hrep happ => exact hi.added hinv hid hframe

/-- Looking up a named event gives its place. -/
theorem NamedIndexed.realGetGTIDInfo_eq {h : History} {segs : List Segment} (hi : NamedIndexed h)
    (hinv : HistoryInv cx h segs) {x : AcceptedEvent} (hx : Named h x) (lowerBound : Bool) :
    realGetGTIDInfo h.store x.data.gtid lowerBound = (.ok, x.info) := by
  have hlower : h.store.index.lowerBound x.data.gtid = some (x.data.gtid, .info x.info) := by
    apply SortedMap.lowerBound_eq_some_iff.mpr
    exact ⟨hi x hx, le_refl _, fun e _ hle => hle⟩
  have hindexed : getGTIDIndex h.store.index x.data.gtid lowerBound = (.ok, x.info) := by
    simp only [getGTIDIndex, hlower, true_or, if_true]
  simp only [realGetGTIDInfo, hindexed, getLastestGTIDEventByGTID]
  split
  · rename_i info hinfo
    split
    · -- The last event of the UUID has this GTID, so it is the named one.
      rename_i heq
      rw [hinv.uuid, Option.map_eq_some_iff] at hinfo
      obtain ⟨y, hy, rfl⟩ := hinfo
      have hyacc := (List.mem_filter.mp (List.mem_of_getLast? hy)).1
      have hgtid : y.data.gtid = x.data.gtid := heq
      rw [hx.unique y hyacc (by rw [hgtid])]
    · rfl
  · rfl

/-! ## The reader -/

variable (cx) in
/-- The events that the reader of a store has still to return. -/
def Pending (h : History) (events : List EventData) : Prop :=
  ∃ segs rest, HistoryInv cx h segs ∧ AtRecords cx segs h.store.manager.reader rest ∧
    rest.filter (fun r => r.gtid ≠ []) = events

/-- The history with another read position. -/
def History.withReader (h : History) (st : Storage) : History :=
  { h with store := h.store.withReader st }

theorem HistoryInv.withReader {h : History} {segs : List Segment} (hinv : HistoryInv cx h segs)
    (st : Storage) : HistoryInv cx (h.withReader st) segs := by
  apply @HistoryInv.looked cx (fun _ => False) h segs hinv
  · intro f hf
    exact hf.elim
  · exact ⟨.refl, rfl, rfl, rfl, rfl, rfl⟩

/-- `GetEvent` returns the first pending event. -/
theorem Pending.getEvent_cons {h : History} {r : EventData} {events : List EventData}
    (hp : Pending cx h (r :: events)) :
    ∃ rd, getEvent cx h.store = (.ok, r, h.store.withReader rd) ∧
      Pending cx (h.withReader rd) events := by
  obtain ⟨segs, rest, hinv, hat, hrest⟩ := hp
  obtain ⟨rd, rest', hat', hgot⟩ := getEvent_spec hinv.rep.files hat
  rw [hrest] at hgot
  exact ⟨rd, hgot.2, segs, rest', hinv.withReader rd, hat', hgot.1⟩

/-- `GetEvent` returns nothing if no event is pending. -/
theorem Pending.getEvent_nil {h : History} (hp : Pending cx h []) :
    ∃ rd, getEvent cx h.store = (.dataEmpty, {}, h.store.withReader rd) ∧
      Pending cx (h.withReader rd) [] := by
  obtain ⟨segs, rest, hinv, hat, hrest⟩ := hp
  obtain ⟨rd, rest', hat', hgot⟩ := getEvent_spec hinv.rep.files hat
  rw [hrest] at hgot
  refine ⟨rd, hgot.2, segs, rest', hinv.withReader rd, hat', ?_⟩
  rw [hgot.1]
  rfl

/-- A longer last file, and files after it, come after what followed a read position. -/
theorem AtRecords.extend {segs more : List Segment} {g g' : Segment} {extra : List EventData}
    (hid : g'.id = g.id) (hrecords : g'.records = g.records ++ extra) {st : Storage}
    {rest : List EventData} (hat : AtRecords cx (segs ++ [g]) st rest) :
    AtRecords cx (segs ++ g' :: more) st (rest ++ (extra ++ more.flatMap Segment.records)) := by
  obtain ⟨before, a, after, pre, post, hsegs, ha, hst, rfl⟩ := hat
  rcases List.eq_nil_or_concat after with rfl | ⟨after, b, rfl⟩
  · -- The position is in the last file.
    obtain ⟨rfl, hlast⟩ := List.append_inj' hsegs rfl
    cases hlast
    have hfile : g'.file = g.file := congrArg genFileName hid
    refine ⟨segs, g', more, pre, post ++ extra, rfl, ?_, ?_, ?_⟩
    · rw [hrecords, ha, List.append_assoc]
    · rw [hst, hfile]
    · simp
  · have hsplit : segs ++ [g] = before ++ a :: after ++ [b] := by
      rw [hsegs, List.append_assoc]
      simp
    obtain ⟨rfl, hlast⟩ := List.append_inj' hsplit rfl
    cases hlast
    refine ⟨before, a, after ++ g' :: more, pre, post, ?_, ha, hst, ?_⟩
    · simp
    · simp [hrecords]

theorem Segment.records_add (g : Segment) (r : EventData) :
    (g.add cx r).records =
      g.records ++ if (cx.eventData.serialize r).isSome then [r] else [] := by
  rw [Segment.add]
  split
  · rfl
  · exact (List.append_nil _).symm

/-- Adding an event adds it to the events that follow a read position. -/
theorem AtRecords.appended {data : EventData} {segs segs' : List Segment}
    (happ : Appended cx data segs segs') (hser : (cx.eventData.serialize data).isSome = true)
    (hgtid : data.gtid ≠ []) {st : Storage} {rest : List EventData}
    (hat : AtRecords cx segs st rest) :
    ∃ rest', AtRecords cx segs' st rest' ∧
      rest'.filter (fun r => r.gtid ≠ []) = rest.filter (fun r => r.gtid ≠ []) ++ [data] := by
  cases happ with
  | plain segs g =>
    refine ⟨_, hat.extend (Segment.add_id cx g data) (Segment.records_add g data), ?_⟩
    simp [hser, hgtid]
  | switched segs g header hheader =>
    have hlonger : ((g.add cx data).add cx header).records = g.records ++
        (data :: if (cx.eventData.serialize header).isSome then [header] else []) := by
      rw [Segment.records_add, Segment.records_add, if_pos hser, List.append_assoc]
      rfl
    have hid : ((g.add cx data).add cx header).id = g.id := by simp
    have hat' := @AtRecords.extend cx segs [Segment.add cx { id := data.instanceId } header] _ _ _
      hid hlonger _ _ hat
    rw [List.append_cons] at hat'
    refine ⟨_, hat', ?_⟩
    -- The footer and the header are no events.
    rw [List.filter_append, List.flatMap_singleton, Segment.records_add]
    split
    · simp [hgtid, hheader]
    · simp [hgtid]

/-- `AddEvent` rejects an event or makes it the last stored and the last pending one. -/
theorem Pending.addEvent {h : History} {events : List EventData} (hp : Pending cx h events)
    {maxSize : Nat} {master : MasterInfo} {data : EventData}
    (hok : Addable cx (.addEvent maxSize master data)) :
    historyStep cx h (.addEvent maxSize master data) = h ∨
      ∃ x : AcceptedEvent, x.data = data ∧
        (historyStep cx h (.addEvent maxSize master data)).kept = h.kept ++ [x] ∧
        Pending cx (historyStep cx h (.addEvent maxSize master data)) (events ++ [data]) := by
  obtain ⟨segs, rest, hinv, hat, hrest⟩ := hp
  by_cases hid : data.instanceId ≤ h.store.lastInstanceID
  · left
    simp only [historyStep, addEvent_of_le hid, reduceCtorEq, if_false]
  · right
    obtain ⟨hret, hframe, segs', hrep, happ⟩ := addEvent_rep hinv.rep (Nat.lt_of_not_le hid) hok.2.1
      maxSize master data.gtid
    have hinv' := hinv.added hok.1 hok.2.2 (Nat.lt_of_not_le hid) hframe hrep happ
    obtain ⟨rest', hat', hrest'⟩ := hat.appended happ hok.2.2 hok.1
    simp only [historyStep, hret, if_true]
    refine ⟨{ place := h.store.manager.writer, data := data }, rfl, ?_, segs', rest', hinv', ?_, ?_⟩
    · simp only [History.kept, List.filter_append]
      rw [List.filter_cons_of_pos (by simpa using hinv.writer_not_deleted), List.filter_nil]
    · show AtRecords cx segs' _ rest'
      rw [hframe.reader]
      exact hat'
    · rw [hrest', hrest]

/-! ## Interleavings -/

/-- A store whose reader is in use: the events that calls of `GetEvent` have returned, and the
number of calls that have found none and wait. -/
structure Stream where
  history : History
  returned : List EventData := []
  waiting : Nat := 0

/-- A call of `AddEvent`; a call of `GetEvent` up to its return or to `pthread_cond_wait`; the
return of a call that has waited. -/
inductive StreamAction
  | addEvent (maxSize : Nat) (master : MasterInfo) (data : EventData)
  | getEvent (wait : Bool)
  | wake

variable (cx) in
def streamStep (σ : Stream) : StreamAction → Option Stream
  | .addEvent maxSize master data =>
    some { σ with history := historyStep cx σ.history (.addEvent maxSize master data) }
  | .getEvent wait =>
    let got := getEvent cx σ.history.store
    some
      { history := { σ.history with store := got.2.2 }
        returned := if got.1 = .ok then σ.returned ++ [got.2.1] else σ.returned
        waiting := if got.1 = .dataEmpty ∧ wait then σ.waiting + 1 else σ.waiting }
  | .wake => if 0 < σ.waiting then some { σ with waiting := σ.waiting - 1 } else none

variable (cx) in
/-- What the state machine ensures about an event it adds. -/
def StreamAction.Addable : StreamAction → Prop
  | .addEvent maxSize master data => Store.Addable cx (.addEvent maxSize master data)
  | _ => True

variable (cx) in
/-- The events from the named one on are those that were returned and those that are pending. -/
def Streaming (before : List AcceptedEvent) (x : AcceptedEvent) (σ : Stream) : Prop :=
  ∃ after events, σ.history.kept = before ++ x :: after ∧ Pending cx σ.history events ∧
    (x :: after).map AcceptedEvent.data = σ.returned ++ events

theorem Streaming.step {before : List AcceptedEvent} {x : AcceptedEvent} {σ σ' : Stream}
    (hs : Streaming cx before x σ) {a : StreamAction} (hok : a.Addable cx)
    (hstep : streamStep cx σ a = some σ') : Streaming cx before x σ' := by
  obtain ⟨after, events, hkept, hp, hsplit⟩ := hs
  cases a with
  | addEvent maxSize master data =>
    cases hstep
    -- A new event is pending too, since it is behind everything in the files.
    rcases hp.addEvent hok with hsame | ⟨y, rfl, hkept', hp'⟩
    · refine ⟨after, events, ?_, ?_, hsplit⟩
      · rw [hsame]
        exact hkept
      · rw [hsame]
        exact hp
    · refine ⟨after ++ [y], events ++ [y.data], ?_, hp', ?_⟩
      · rw [hkept', hkept, List.append_assoc]
        rfl
      · rw [← List.append_assoc, ← hsplit]
        simp
  | getEvent wait =>
    cases hstep
    cases events with
    | nil =>
      -- Nothing is returned, and the reader may have moved over headers.
      obtain ⟨rd, hget, hp'⟩ := hp.getEvent_nil
      refine ⟨after, [], hkept, ?_, ?_⟩
      · rw [hget]
        exact hp'
      · simp only [hget, reduceCtorEq, if_false]
        exact hsplit
    | cons r events =>
      obtain ⟨rd, hget, hp'⟩ := hp.getEvent_cons
      refine ⟨after, events, hkept, ?_, ?_⟩
      · rw [hget]
        exact hp'
      · simp only [hget, if_true, List.append_assoc]
        exact hsplit
  | wake =>
    simp only [streamStep] at hstep
    split at hstep
    · cases hstep
      exact ⟨after, events, hkept, hp, hsplit⟩
    · cases hstep

/-- Different canonical GTIDs name their events. -/
theorem IndexInv.named {h : History} (hi : IndexInv h) {x : AcceptedEvent} (hx : x ∈ h.kept) :
    Named h x where
  kept := hx
  unique := fun _ hy hrank => hi.eq_of_gtidRank_eq hy (History.mem_kept.mp hx).1 hrank
  key := gtidRank_ne_key (hi.canonical x (History.mem_kept.mp hx).1)

end PhxSql.Store
