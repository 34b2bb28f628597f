import PhxSql.Repl.ReplicationTransfer
import PhxSql.Store.EmptySignUp
import PhxSql.Store.EventStream
import Mathlib.Data.List.Chain

/-!
# The checksum of the events that are sent

`SMExecute` accepts an event only if its checksum continues that of the newest event, and
`CountCheckSum` computes the same chain from the pieces it sends. The two agree for three reasons:
the checksum of a list of buffers is that of its pieces, the pieces of a batch make up the events of
the batch, and the reader returns the accepted events without a gap. Then the last GTID of a batch
is that of its last event, and its lookup finds the checksum at which the count has arrived
(`checksum_agrees`).

The lookup finds the newest event with a GTID. An event with a GTID that an older one has makes the
count fail for a reader of the older one.
-/

set_option autoImplicit false

namespace PhxSql.Repl

open PhxSql.Proto PhxSql.Lib PhxSql.Gtid PhxSql.Store PhxSql.Paxos

variable {cx : Codecs}

/-! ## Checksums of pieces -/

theorem getCheckSum_append (checksum : Nat) (a b : Bytes) :
    getCheckSum checksum (a ++ b) = getCheckSum (getCheckSum checksum a) b :=
  List.foldl_append

theorem foldl_getCheckSum (pieces : List Bytes) :
    ∀ checksum, pieces.foldl getCheckSum checksum = getCheckSum checksum pieces.flatten := by
  induction pieces with
  | nil =>
    intro checksum
    rfl
  | cons piece pieces ih =>
    intro checksum
    rw [List.foldl_cons, ih, List.flatten_cons, getCheckSum_append]

/-- `CountCheckSum` on the events of a buffer computes the checksum of the buffer. -/
theorem foldl_withCharset {buffer : Bytes} (hok : (parseEventList buffer).1 = .ok) (checksum : Nat) :
    (withCharset (parseEventList buffer).2).foldl
        (fun sum e => getCheckSum sum (e.drop getEventHeaderSize)) checksum =
      getCheckSum checksum buffer := by
  have hwhole := flatten_parseEventList buffer.length buffer (Nat.le_refl _) hok
  have hpieces := foldl_getCheckSum ((parseEventList buffer).2.map Prod.fst) checksum
  rw [hwhole, List.foldl_map] at hpieces
  rw [withCharset, List.foldl_map]
  exact hpieces

/-- The checksum of each event continues that of the one before it. -/
def Chained (events : List EventData) : Prop :=
  events.IsChain fun x y => y.checksum = getCheckSum x.checksum y.data

/-- Along a chain the last checksum is that of all bytes in between. -/
theorem Chained.checksum_getLast? (got : List EventData) :
    ∀ {x y : EventData}, Chained (x :: got) → (x :: got).getLast? = some y →
      y.checksum = getCheckSum x.checksum (got.flatMap EventData.data) := by
  induction got with
  | nil =>
    intro x y _ hlast
    cases hlast
    rfl
  | cons z got ih =>
    intro x y hchain hlast
    obtain ⟨hnext, hrest⟩ := List.isChain_cons_cons.mp hchain
    rw [List.flatMap_cons, getCheckSum_append, ← hnext]
    apply ih hrest
    rwa [List.getLast?_cons_cons] at hlast

/-! ## The accepted events -/

/-- The buffer of an event parses, and its last GTID is that of the event. -/
def Parsed (data : EventData) : Prop :=
  (parseEventList data.data).1 = .ok ∧ maxGtid (parseEventList data.data).2 = data.gtid

instance (data : EventData) : Decidable (Parsed data) :=
  inferInstanceAs (Decidable (_ ∧ _))

/-- The GTID of such an event has one of the two forms of GTIDs. -/
theorem Parsed.gtidText {data : EventData} (h : Parsed data) (hgtid : data.gtid ≠ []) :
    GtidText data.gtid := by
  have htext := gtidText_maxGtid (parseEventList data.data).2 (gtidText_of_mem _ _)
  rw [h.2] at htext
  exact htext.resolve_left hgtid

/-- The key of the UUID table has no dash, and the GTIDs of events do. -/
theorem gtidRank_ne_key_of_gtidText {gtid : Bytes} (h : GtidText gtid) :
    gtidRank gtid ≠ gtidRank getKeyForUUID := by
  intro hrank
  have hparse : (parseGTID gtid).1 = getKeyForUUID := by
    simp only [gtidRank, EmbeddingLike.apply_eq_iff_eq, Prod.mk.injEq, byteRank_inj,
      parseGTID_getKeyForUUID] at hrank
    exact hrank.1
  have hnone : getKeyForUUID.count 45 = 0 := by decide
  rcases h.count_dash with ⟨-, hcount⟩ | ⟨-, hcount⟩
  · rw [hparse, hnone] at hcount
    cases hcount
  · rw [hparse, hnone] at hcount
    cases hcount

variable (cx) in
/-- What holds of a store without deletion whose events are parsed and have different GTIDs. -/
structure ChainInv (h : History) : Prop where
  inv : ∃ segs, HistoryInv cx h segs
  named : NamedIndexed h
  indexed : ∀ e ∈ h.store.index.entries, ∀ i, e.2 = .info i → ∃ x ∈ h.accepted, x.info = i
  whole : h.deleted = []
  parsed : ∀ x ∈ h.accepted, Parsed x.data
  distinct : (h.accepted.map fun x => x.data.gtid).Nodup
  chained : Chained (h.accepted.map AcceptedEvent.data)

theorem ChainInv.kept_eq {h : History} (hc : ChainInv cx h) : h.kept = h.accepted := by
  simp [History.kept, hc.whole]

theorem ChainInv.isNamed {h : History} (hc : ChainInv cx h) {x : AcceptedEvent}
    (hx : x ∈ h.accepted) : Named h x := by
  obtain ⟨segs, hinv⟩ := hc.inv
  have htext : ∀ y ∈ h.accepted, GtidText y.data.gtid := fun y hy =>
    (hc.parsed y hy).gtidText (hinv.gtids y hy)
  refine ⟨hc.kept_eq ▸ hx, ?_, gtidRank_ne_key_of_gtidText (htext x hx)⟩
  intro y hy hrank
  exact List.inj_on_of_nodup_map hc.distinct hy hx ((htext y hy).eq_of_gtidRank_eq (htext x hx) hrank)

/-- Lookups keep what is known of the accepted events. -/
theorem ChainInv.looked {names : Bytes → Prop} {h : History} (hc : ChainInv cx h)
    (hnames : ∀ f, names f → FileName f) {s' : EventStorage} (hl : Looked names h.store s') :
    ChainInv cx { h with store := s' } where
  inv := by
    obtain ⟨segs, hinv⟩ := hc.inv
    exact ⟨segs, hinv.looked hnames hl⟩
  named := by
    intro x hx
    rw [hl.index]
    exact hc.named x ⟨hx.kept, hx.unique, hx.key⟩
  indexed := by
    rw [hl.index]
    exact hc.indexed
  whole := hc.whole
  parsed := hc.parsed
  distinct := hc.distinct
  chained := hc.chained

theorem ChainInv.withReader {h : History} (hc : ChainInv cx h) (st : Storage) :
    ChainInv cx (h.withReader st) := by
  apply @ChainInv.looked cx (fun _ => False) h hc
  · intro f hf
    exact hf.elim
  · exact ⟨.refl, rfl, rfl, rfl, rfl, rfl⟩

theorem ChainInv.getLastGtid {h : History} (hc : ChainInv cx h) (gtids : List Bytes) :
    ChainInv cx (historyStep cx h (.getLastGtid gtids)) := by
  obtain ⟨segs, hinv⟩ := hc.inv
  apply hc.looked (fun f hf => ?_) (getLastGtid_looked h.store gtids)
  exact @HistoryInv.fileName_of_opens cx h segs hinv (.getLastGtid gtids) f (.inl hf)

theorem ChainInv.reSet {h : History} (hc : ChainInv cx h) (gtid : Bytes) :
    ChainInv cx (historyStep cx h (.reSet gtid)) := by
  obtain ⟨segs, hinv⟩ := hc.inv
  apply hc.looked (fun f hf => ?_) (reSet_looked h.store gtid)
  apply @HistoryInv.fileName_of_opens cx h segs hinv (.reSet gtid) f
  exact hf.imp_left (foundIn_head [])

/-- An event that continues the newest one, with a new GTID, keeps what is known of the accepted
events. -/
theorem ChainInv.added {h : History} (hc : ChainInv cx h) {maxSize : Nat} {master : MasterInfo}
    {data : EventData} (hok : Addable cx (.addEvent maxSize master data))
    (hid : h.store.lastInstanceID < data.instanceId) (hparsed : Parsed data)
    (hnew : ∀ x ∈ h.accepted, x.data.gtid ≠ data.gtid)
    (hsum : data.checksum = getCheckSum h.store.uuidHandler.newestInfo.checksum data.data) :
    ChainInv cx (historyStep cx h (.addEvent maxSize master data)) := by
  obtain ⟨segs, hinv⟩ := hc.inv
  obtain ⟨hret, hframe, segs', hrep, happ⟩ := addEvent_rep hinv.rep hid hok.2.1 maxSize master data.gtid
  simp only [historyStep, hret, if_true]
  refine ⟨⟨segs', hinv.added hok.1 hok.2.2 hid hframe hrep happ⟩, hc.named.added hinv hid hframe,
    ?_, hc.whole, ?_, ?_, ?_⟩
  · intro e he i hi
    rcases hframe.mem_index he with rfl | ⟨hold, -⟩ | ⟨l, rfl⟩
    · cases hi
      exact ⟨_, List.mem_append_right _ List.mem_cons_self, rfl⟩
    · obtain ⟨x, hx, hinfo⟩ := hc.indexed e hold i hi
      exact ⟨x, List.mem_append_left _ hx, hinfo⟩
    · cases hi
  · intro x hx
    rcases List.mem_append.mp hx with hx | hx
    · exact hc.parsed x hx
    · rw [List.mem_singleton.mp hx]
      exact hparsed
  · rw [List.map_append, List.nodup_append]
    refine ⟨hc.distinct, List.nodup_singleton _, ?_⟩
    intro g hg g' hg' heq
    obtain ⟨x, hx, rfl⟩ := List.mem_map.mp hg
    exact hnew x hx (heq.trans (List.mem_singleton.mp hg'))
  · rw [Chained, List.map_append, List.isChain_append]
    refine ⟨hc.chained, List.isChain_singleton _, ?_⟩
    -- The newest event is the last accepted one.
    intro x hx y hy
    rw [List.getLast?_map, Option.mem_def, Option.map_eq_some_iff] at hx
    obtain ⟨z, hz, rfl⟩ := hx
    cases hy
    rw [hinv.newest, hz] at hsum
    exact hsum

/-! ## The reader -/

/-- A batch holds these events. -/
def Taken : Option Batch → List EventData → Prop
  | none, got => got = []
  | some b, got =>
    b.data = got.flatMap EventData.data ∧ b.getNum = got.length ∧ (b.done = true → got ≠ [])

variable (cx) in
/-- The accepted events are those that were counted, those of the batch and those that are pending;
the checksum of the transfer is that of the last one that was counted. -/
structure Sending (h : History) (t : ReplicationTransfer) (sent got events : List EventData) :
    Prop where
  split : h.accepted.map AcceptedEvent.data = sent ++ got ++ events
  pending : Pending cx h events
  checksum : t.checksum ≠ 0 → ∃ x, sent.getLast? = some x ∧ x.checksum = t.checksum
  taken : Taken t.batch got

/-- A new transfer starts before some accepted event. -/
theorem sending_of_pending {h : History} {before events : List EventData}
    (hsplit : h.accepted.map AcceptedEvent.data = before ++ events) (hp : Pending cx h events) :
    Sending cx h {} before [] events where
  split := by rw [hsplit, List.append_nil]
  pending := hp
  checksum := fun hne => absurd rfl hne
  taken := rfl

/-- The events before a place: that of an accepted event, or the start of all. -/
def BeforePlace (h : History) (place : Option EventDataInfo) (before : List EventData) : Prop :=
  match place with
  | none => before = []
  | some info => ∃ xs x after, h.accepted = xs ++ x :: after ∧ before = xs.map AcceptedEvent.data ∧
      x.info = info

/-- Where `ReSet` puts the reader: at the start, or at the event that the lookup finds. -/
def reSetPlace (s : EventStorage) (gtid : Bytes) : Option EventDataInfo :=
  if gtid = [] then none else some (realGetGTIDInfo s gtid true).2

/-- After `ReSet` the reader is at its place among the accepted events. -/
theorem ChainInv.sending_reSet_at {h : History} (hc : ChainInv cx h) {gtid : Bytes}
    (hok : (Store.reSet h.store gtid).1 = .ok) :
    ∃ before events, Sending cx (historyStep cx h (.reSet gtid)) {} before [] events ∧
      BeforePlace h (reSetPlace h.store gtid) before := by
  obtain ⟨segs, hinv⟩ := hc.inv
  by_cases hgtid : gtid = []
  · -- The reader is at the start of the oldest file.
    subst hgtid
    obtain ⟨g, after, rfl⟩ : ∃ g after, segs = g :: after := by
      obtain ⟨g, hlast, -⟩ := hinv.rep.getLast?
      cases segs with
      | nil => cases hlast
      | cons g after => exact ⟨g, after, rfl⟩
    have hreset := reSet_nil hinv.rep
    have hpending : Pending cx (historyStep cx h (.reSet []))
        (h.accepted.map AcceptedEvent.data) := by
      refine ⟨g :: after, (g :: after).flatMap Segment.records, ?_, ?_, ?_⟩
      · simp only [historyStep, hreset]
        exact hinv.withReader _
      · simp only [historyStep, hreset]
        exact ⟨[], g, after, [], g.records, rfl, rfl, rfl, rfl⟩
      · rw [← hc.kept_eq, ← hinv.placed_eq_kept, map_data_placedEvents]
        rfl
    exact ⟨[], _, sending_of_pending rfl hpending, rfl⟩
  · obtain ⟨info, hfound⟩ : ∃ info, realGetGTIDInfo h.store gtid true = (.ok, info) := by
      simp only [Store.reSet, hgtid, if_false] at hok
      split at hok
      · cases hok
      · split at hok
        · rename_i hret
          exact ⟨_, Prod.ext hret rfl⟩
        · cases hok
    obtain ⟨x, hx, rfl⟩ : ∃ x ∈ h.accepted, x.info = info := by
      rcases realGetGTIDInfo_ok hfound with ⟨huuid, -⟩ | ⟨e, he, hval⟩
      · rw [hinv.uuid, Option.map_eq_some_iff] at huuid
        obtain ⟨x, hx, hinfo⟩ := huuid
        exact ⟨x, (List.mem_filter.mp (List.mem_of_getLast? hx)).1, hinfo⟩
      · exact hc.indexed e he info hval
    rw [← hc.kept_eq] at hx
    have hreset := hinv.reSet_of_found hx hgtid hfound
    obtain ⟨before, after, rest, hplaced, hat, hrest⟩ :=
      exists_placed_split (hinv.placed_eq_kept ▸ hx)
    rw [hinv.placed_eq_kept, hc.kept_eq] at hplaced
    have hpending : Pending cx (historyStep cx h (.reSet gtid))
        ((x :: after).map AcceptedEvent.data) := by
      refine ⟨segs, rest, ?_, ?_, hrest⟩
      · simp only [historyStep, hreset]
        exact hinv.withReader x.place
      · simp only [historyStep, hreset]
        exact hat
    refine ⟨before.map AcceptedEvent.data, _, sending_of_pending ?_ hpending, ?_⟩
    · rw [← List.map_append, ← hplaced]
      rfl
    · simp only [reSetPlace, if_neg hgtid, hfound]
      exact ⟨before, x, after, hplaced, rfl, rfl⟩

/-- Whatever `ReSet` finds, the reader is then before some accepted event. -/
theorem ChainInv.sending_reSet {h : History} (hc : ChainInv cx h) {gtid : Bytes}
    (hok : (Store.reSet h.store gtid).1 = .ok) :
    ∃ before events, Sending cx (historyStep cx h (.reSet gtid)) {} before [] events := by
  obtain ⟨before, events, hs, -⟩ := hc.sending_reSet_at hok
  exact ⟨before, events, hs⟩

/-! ## The count -/

/-- At the end of a batch the lookup finds its last event, and the count has arrived at the checksum
of this event. -/
theorem Sending.count {h : History} {checksum : Nat} {b : Batch} {sent got events : List EventData}
    (hs : Sending cx h { checksum := checksum, batch := some b } sent got events)
    (hc : ChainInv cx h) (hdone : b.done = true) :
    ∃ x ∈ h.accepted, got.getLast? = some x.data ∧ (parseEventList b.data).1 = .ok ∧
      maxGtid (parseEventList b.data).2 = x.data.gtid ∧
      b.count h.store checksum =
        { found := .ok, stored := x.data.checksum, checksum := x.data.checksum } := by
  obtain ⟨hdata, -, hne⟩ := hs.taken
  obtain ⟨segs, hinv⟩ := hc.inv
  obtain ⟨y, hy⟩ := Option.isSome_iff_exists.mp (List.getLast?_isSome.mpr (hne hdone))
  have hgot : ∀ z ∈ got, ∃ x ∈ h.accepted, x.data = z := by
    intro z hz
    apply List.mem_map.mp
    rw [hs.split]
    simp [hz]
  obtain ⟨x, hx, rfl⟩ := hgot y (List.mem_of_getLast? hy)
  have hflat : b.data = (got.map EventData.data).flatten := hdata
  obtain ⟨hparse, hmax⟩ := parseEventList_flatten (got.map EventData.data) (by
    intro buffer hbuffer
    obtain ⟨z, hz, rfl⟩ := List.mem_map.mp hbuffer
    obtain ⟨x', hx', rfl⟩ := hgot z hz
    exact (hc.parsed x' hx').1)
  rw [← hflat] at hparse hmax
  have hgtid : maxGtid (parseEventList b.data).2 = x.data.gtid := by
    have hlast : (got.map EventData.data).getLast? = some x.data.data := by
      rw [List.getLast?_map, hy]
      rfl
    have hxmax := (hc.parsed x hx).2
    rw [hmax _ hlast (hxmax ▸ hinv.gtids x hx), hxmax]
  have hfound := hc.named.realGetGTIDInfo_eq hinv (hc.isNamed hx) false
  refine ⟨x, hx, hy, hparse, hgtid, ?_⟩
  simp only [Batch.count, countCheckSum, hgtid, hfound, foldl_withCharset hparse]
  have hstored : x.info.checksum = x.data.checksum := rfl
  rw [hstored]
  split
  · rfl
  · -- The count starts at the last event that was counted before.
    rename_i hzero
    obtain ⟨z, hz, hzsum⟩ := hs.checksum hzero
    obtain ⟨before, rfl⟩ := List.getLast?_eq_some_iff.mp hz
    have hchain := hc.chained
    rw [hs.split, Chained, List.append_assoc before] at hchain
    have hmiddle : Chained (z :: got) := hchain.left_of_append.right_of_append
    have hlast : (z :: got).getLast? = some x.data := by
      rw [List.getLast?_cons, hy]
      rfl
    have hsum := Chained.checksum_getLast? got hmiddle hlast
    have hstart : z.checksum = checksum := hzsum
    rw [hdata, hsum, hstart]

/-! ## Steps -/

/-- Another accepted event is pending too. -/
theorem Sending.added {h : History} {t : ReplicationTransfer} {sent got events : List EventData}
    (hs : Sending cx h t sent got events) (hc : ChainInv cx h) {maxSize : Nat} {master : MasterInfo}
    {data : EventData} (hok : Addable cx (.addEvent maxSize master data))
    (hc' : ChainInv cx (historyStep cx h (.addEvent maxSize master data))) :
    ∃ events', Sending cx (historyStep cx h (.addEvent maxSize master data)) t sent got events' := by
  rcases hs.pending.addEvent hok with hsame | ⟨x, rfl, hkept, hp⟩
  · rw [hsame]
    exact ⟨events, hs⟩
  · refine ⟨events ++ [x.data], ?_, hp, hs.checksum, hs.taken⟩
    rw [← hc'.kept_eq, hkept, hc.kept_eq, List.map_append, hs.split, List.append_assoc]
    rfl

/-- A batch starts with no event. -/
theorem Sending.start {h : History} {checksum pushLimit : Nat} {sent got events : List EventData}
    (hs : Sending cx h { checksum := checksum } sent got events) (hpos : 0 < pushLimit) :
    Sending cx h { checksum := checksum, batch := some (startBatch checksum pushLimit) }
      sent got events := by
  obtain rfl : got = [] := hs.taken
  refine ⟨hs.split, hs.pending, hs.checksum, rfl, rfl, ?_⟩
  intro hdone
  have hwant := of_decide_eq_true hdone
  split at hwant
  · cases hwant
  · exact absurd hwant hpos.ne'

/-- `GetEvent` moves an event from the pending ones to the batch, or ends the batch. -/
theorem Sending.getEvent {h : History} {checksum : Nat} {b : Batch} {sent got events : List EventData}
    (hs : Sending cx h { checksum := checksum, batch := some b } sent got events) :
    ∃ rd t got' events', Store.getEvent cx h.store =
        ((Store.getEvent cx h.store).1, (Store.getEvent cx h.store).2.1, h.store.withReader rd) ∧
      takeEvent checksum b (Store.getEvent cx h.store).1 (Store.getEvent cx h.store).2.1 = some t ∧
      Sending cx (h.withReader rd) t sent got' events' := by
  obtain ⟨hdata, hnum, -⟩ := hs.taken
  cases events with
  | nil =>
    -- Nothing is left to read: a batch with events is done, an empty one is given up.
    obtain ⟨rd, hget, hp⟩ := hs.pending.getEvent_nil
    rw [hget]
    refine ⟨rd, _, got, [], rfl, rfl, hs.split, hp, hs.checksum, ?_⟩
    show Taken (if b.getNum = 0 then none else some { b with done := true }) got
    split
    · rename_i hzero
      exact List.length_eq_zero_iff.mp (hnum.symm.trans hzero)
    · rename_i hzero
      refine ⟨hdata, hnum, fun _ hempty => hzero ?_⟩
      rw [hnum, hempty]
      rfl
  | cons r events =>
    obtain ⟨rd, hget, hp⟩ := hs.pending.getEvent_cons
    rw [hget]
    refine ⟨rd, _, got ++ [r], events, rfl, rfl, ?_, hp, hs.checksum, ?_, ?_, ?_⟩
    · show h.accepted.map AcceptedEvent.data = _
      rw [hs.split]
      simp
    · show b.data ++ r.data = _
      rw [hdata]
      simp
    · show b.getNum + 1 = _
      rw [hnum, List.length_append]
      rfl
    · simp

/-- The events of a batch that was counted are sent. -/
theorem Sending.counted {h : History} {checksum : Nat} {b : Batch} {sent got events : List EventData}
    (hs : Sending cx h { checksum := checksum, batch := some b } sent got events)
    {y : EventData} (hy : got.getLast? = some y) :
    Sending cx h { checksum := y.checksum } (sent ++ got) [] events where
  split := by rw [hs.split, List.append_nil]
  pending := hs.pending
  checksum := by
    intro _
    refine ⟨y, ?_, rfl⟩
    rw [List.getLast?_append, hy]
    rfl
  taken := rfl

variable (cx) in
/-- The event that an instance makes the store accept, if any. -/
def ReplState.accepts (σ : ReplState) (e : Entry) : Option EventData :=
  match e.sm, σ.verdict cx e with
  | .event, .ok data =>
    if σ.history.store.lastInstanceID < e.instanceId.toNat then
      some (savedEvent e.instanceId.toNat data)
    else none
  | _, _ => none

@[simp] theorem transfer_executeStep (env : LocalEnv) (i : Nat) (e : Entry) (σ : ReplState) :
    (executeStep cx env i e σ).transfer = σ.transfer := by
  unfold executeStep
  split
  · split
    · rfl
    · rfl
  · rfl

/-- An instance adds an event that passed the checks of `SMExecute`, or leaves the store as it is.
-/
theorem history_executeStep (env : LocalEnv) (i : Nat) (e : Entry) (σ : ReplState) :
    (executeStep cx env i e σ).history = σ.history ∨
      ∃ data, σ.accepts cx e = some data ∧
        (executeStep cx env i e σ).history =
          historyStep cx σ.history (.addEvent env.maxEventFileSize σ.master data) ∧
        σ.history.store.lastInstanceID < data.instanceId ∧
        data.gtid ≠ [] ∧ data.instanceId < 2 ^ 64 ∧
        data.checksum = getCheckSum σ.history.store.uuidHandler.newestInfo.checksum data.data := by
  cases hsm : e.sm with
  | master =>
    left
    simp only [executeStep, hsm]
  | event =>
    cases hverdict : σ.verdict cx e with
    | error code =>
      left
      simp only [executeStep, hsm, hverdict]
    | ok data =>
      obtain ⟨-, hcarries, hcheck⟩ := eventVerdict_ok_iff.mp hverdict
      have hhistory : (executeStep cx env i e σ).history = historyStep cx σ.history
          (.addEvent env.maxEventFileSize σ.master (savedEvent e.instanceId.toNat data)) := by
        simp only [executeStep, hsm, hverdict]
      by_cases hid : σ.history.store.lastInstanceID < e.instanceId.toNat
      · right
        refine ⟨savedEvent e.instanceId.toNat data, ?_, hhistory, hid,
          (carriesEvent_iff.mp hcarries).2, e.instanceId.toNat_lt,
          (checkEvent_ok_iff.mp hcheck).2.2.symm⟩
        simp only [ReplState.accepts, hsm, hverdict, hid, if_true]
      · -- `AddEvent` has this instance already.
        left
        have hold : (savedEvent e.instanceId.toNat data).instanceId ≤
            σ.history.store.lastInstanceID := Nat.le_of_not_lt hid
        rw [hhistory]
        simp only [historyStep, addEvent_of_le hold, reduceCtorEq, if_false]

/-! ## Runs -/

variable (cx) in
/-- The buffers of accepted events parse and end with the GTID of their event, as the client sends
them, and protobuf serialises the event. -/
def Sent (σ : ReplState) : ReplAction → Prop
  | .execute _ _ e =>
    ∀ data ∈ σ.accepts cx e, Parsed data ∧ (cx.eventData.serialize data).isSome = true
  | _ => True

variable (cx) in
/-- No event is accepted with the GTID of another one. -/
def NewGtid (σ : ReplState) : ReplAction → Prop
  | .execute _ _ e => ∀ data ∈ σ.accepts cx e, ∀ x ∈ σ.history.accepted, x.data.gtid ≠ data.gtid
  | _ => True

/-- `GetMaxEventCountToPush` allows an event. -/
def Pushes : ReplAction → Prop
  | .start pushLimit => 0 < pushLimit
  | _ => True

variable (cx) in
/-- What holds in every run. -/
structure ReplInv (σ : ReplState) : Prop where
  chain : ChainInv cx σ.history
  sending : ∀ t, σ.transfer = some t → ∃ sent got events, Sending cx σ.history t sent got events

theorem ReplInv.execute {σ : ReplState} (hinv : ReplInv cx σ) (env : LocalEnv) (i : Nat) {e : Entry}
    (hsent : Sent cx σ (.execute env i e)) (hnew : NewGtid cx σ (.execute env i e)) :
    ReplInv cx (executeStep cx env i e σ) := by
  rcases history_executeStep env i e σ with hsame | ⟨data, hacc, hadd, hid, hgtid, hlt, hsum⟩
  · refine ⟨hsame ▸ hinv.chain, ?_⟩
    rw [hsame, transfer_executeStep]
    exact hinv.sending
  · obtain ⟨hparsed, hser⟩ := hsent data hacc
    have hok : Addable cx (.addEvent env.maxEventFileSize σ.master data) := ⟨hgtid, hlt, hser⟩
    have hchain := hinv.chain.added hok hid hparsed (hnew data hacc) hsum
    refine ⟨hadd ▸ hchain, ?_⟩
    rw [hadd, transfer_executeStep]
    intro t ht
    obtain ⟨sent, got, events, hs⟩ := hinv.sending t ht
    obtain ⟨events', hs'⟩ := hs.added hinv.chain hok hchain
    exact ⟨sent, got, events', hs'⟩

theorem ReplInv.signUp {σ : ReplState} (hinv : ReplInv cx σ) (gtids : List Bytes) :
    ReplInv cx (signUpStep cx gtids σ) := by
  have hlooked := hinv.chain.getLastGtid gtids
  simp only [signUpStep]
  split
  · refine ⟨hlooked, ?_⟩
    intro t ht
    cases ht
  · refine ⟨hlooked.reSet _, ?_⟩
    intro t ht
    simp only at ht
    split at ht
    · rename_i hok
      cases ht
      obtain ⟨before, events, hs⟩ := hlooked.sending_reSet hok
      exact ⟨before, [], events, hs⟩
    · cases ht

theorem ReplInv.step {σ σ' : ReplState} {a : ReplAction} (hinv : ReplInv cx σ) (hsent : Sent cx σ a)
    (hnew : NewGtid cx σ a) (hpush : Pushes a) (hstep : replStep cx σ a = some σ') :
    ReplInv cx σ' := by
  cases a with
  | execute env i e =>
    cases hstep
    exact hinv.execute env i hsent hnew
  | signUp gtids =>
    cases hstep
    exact hinv.signUp gtids
  | start pushLimit =>
    simp only [replStep] at hstep
    split at hstep
    · rename_i checksum ht
      cases hstep
      obtain ⟨sent, got, events, hs⟩ := hinv.sending _ ht
      refine ⟨hinv.chain, ?_⟩
      intro t ht'
      cases ht'
      exact ⟨sent, got, events, hs.start hpush⟩
    · cases hstep
  | getEvent =>
    simp only [replStep] at hstep
    split at hstep
    · rename_i checksum b ht
      split at hstep
      · cases hstep
      · cases hstep
        obtain ⟨sent, got, events, hs⟩ := hinv.sending _ ht
        obtain ⟨rd, t', got', events', hget, htake, hs'⟩ := hs.getEvent
        -- Reading moves the reader and leaves the rest of the store.
        have hstore : { σ.history with store := (Store.getEvent cx σ.history.store).2.2 } =
            σ.history.withReader rd := by
          rw [hget]
          rfl
        rw [hstore, htake]
        refine ⟨hinv.chain.withReader rd, ?_⟩
        intro t ht'
        cases ht'
        exact ⟨sent, got', events', hs'⟩
    · cases hstep
  | count =>
    simp only [replStep] at hstep
    split at hstep
    · rename_i checksum b ht
      split at hstep
      · rename_i hdone
        cases hstep
        obtain ⟨sent, got, events, hs⟩ := hinv.sending _ ht
        obtain ⟨x, hx, hlast, hparse, -, hcount⟩ := hs.count hinv.chain hdone.1
        refine ⟨hinv.chain, ?_⟩
        intro t ht'
        simp only [hparse, if_true, hcount] at ht'
        cases ht'
        exact ⟨sent ++ got, [], events, hs.counted hlast⟩
      · cases hstep
    · cases hstep

instance (σ : ReplState) (a : ReplAction) : Decidable (Sent cx σ a) :=
  match a with
  | .execute _ _ e => inferInstanceAs (Decidable (∀ data ∈ σ.accepts cx e, _))
  | .signUp _ | .start _ | .getEvent | .count => .isTrue trivial

instance (σ : ReplState) (a : ReplAction) : Decidable (NewGtid cx σ a) :=
  match a with
  | .execute _ _ e => inferInstanceAs (Decidable (∀ data ∈ σ.accepts cx e, _))
  | .signUp _ | .start _ | .getEvent | .count => .isTrue trivial

instance (a : ReplAction) : Decidable (Pushes a) :=
  match a with
  | .start pushLimit => inferInstanceAs (Decidable (0 < pushLimit))
  | .execute _ _ _ | .signUp _ | .getEvent | .count => .isTrue trivial

end PhxSql.Repl
