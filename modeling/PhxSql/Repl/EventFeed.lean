import PhxSql.Repl.CheckSum
import PhxSql.Repl.PacketFraming

/-!
# What a replica is fed with

`ReplicationTransfer::Process` takes batches of events from the store and sends their binlog events
in packets, while instances are executed, files are ended and other lookups move through the index. A
send can fail at any packet, which ends the transfer.

The packets that have reached the connection since a sign-up are those of the accepted events from
the place of the sign-up on: in the order of acceptance, without a gap, none twice, and numbered from
the number with which the session has ended (`replica_fed_in_order`). A failed send leaves a first
part of these packets.
-/

set_option autoImplicit false

namespace PhxSql.Repl

open PhxSql.Proto PhxSql.Lib PhxSql.Gtid PhxSql.Store PhxSql.Paxos

/-! ## The system -/

/-- The replica with its transfer, the place of the sign-up, `m_seq` now and at the sign-up, and the
packets that were sent since. -/
structure Feed where
  repl : ReplState := {}
  place : Option EventDataInfo := none
  first : UInt8 := 0
  seq : UInt8 := 0
  wire : List Bytes := []

/-- An action, with the number that a session ends with (for a sign-up) and the number of sends that
succeed (for the end of a batch). -/
structure FeedAction where
  action : ReplAction
  seq : UInt8 := 0
  sends : Nat := 0

/-- The end of a round of `ReplicationTransfer::Process`: the binlog events of the batch are sent, up
to the first send that fails. `SetSeq` comes before the test of the result. -/
def Feed.send (φ : Feed) (σ : ReplState) (data : Bytes) (sends : Nat) : Feed :=
  let parsed := parseEventList data
  if parsed.1 ≠ .ok then { φ with repl := σ }
  else
    let bodies := withCharset parsed.2
    { φ with
      repl := if bodies.length ≤ sends then σ else { σ with transfer := none }
      seq := φ.seq + UInt8.ofNat (min bodies.length (sends + 1))
      wire := φ.wire ++ (packets φ.seq bodies).take sends }

variable (cx : Codecs)

/-- Where a sign-up puts the reader. -/
def signUpPlace (gtids : List Bytes) (σ : ReplState) : Option EventDataInfo :=
  reSetPlace (historyStep cx σ.history (.getLastGtid gtids)).store
    (getLastGtid cx σ.history.store gtids).2.1

def feedStep (φ : Feed) (a : FeedAction) : Option Feed :=
  (replStep cx φ.repl a.action).map fun σ =>
    match a.action with
    | .signUp gtids =>
      { repl := σ
        place := if σ.transfer.isSome then signUpPlace cx gtids φ.repl else none
        first := a.seq
        seq := a.seq }
    | .count =>
      match φ.repl.transfer with
      | some { batch := some b, .. } => φ.send σ b.data a.sends
      | _ => { φ with repl := σ }
    | _ => { φ with repl := σ }

/-- The conditions on the actions of the transfer. -/
def Feeds (φ : Feed) (a : FeedAction) : Prop :=
  Sent cx φ.repl a.action ∧ NewGtid cx φ.repl a.action ∧ Pushes a.action

instance (φ : Feed) (a : FeedAction) : Decidable (Feeds cx φ a) :=
  inferInstanceAs (Decidable (_ ∧ _ ∧ _))

variable {cx}

/-! ## The bodies of events -/

/-- The bodies of the packets for some events. -/
def eventBodies (events : List EventData) : List Bytes :=
  events.flatMap fun r => withCharset (parseEventList r.data).2

theorem eventBodies_append (events events' : List EventData) :
    eventBodies (events ++ events') = eventBodies events ++ eventBodies events' :=
  List.flatMap_append

theorem withCharset_eq (events : List (Bytes × Bytes)) :
    withCharset events = (events.map Prod.fst).map fun e => 0 :: e := by
  simp [withCharset]

/-- A batch is split as its events are. -/
theorem withCharset_batch (got : List EventData)
    (h : ∀ r ∈ got, (parseEventList r.data).1 = .ok) :
    withCharset (parseEventList (got.flatMap EventData.data)).2 = eventBodies got := by
  induction got with
  | nil => rfl
  | cons r got ih =>
    rw [List.forall_mem_cons] at h
    obtain ⟨events, hevents, happ⟩ := parseEventList_append (got.flatMap EventData.data)
      r.data.length r.data (Nat.le_refl _) h.1
    have hrest := ih h.2
    rw [withCharset_eq] at hrest
    rw [List.flatMap_cons, happ, withCharset_eq, List.map_append, List.map_append, hevents, hrest,
      ← withCharset_eq]
    rfl

theorem packets_append (bodies bodies' : List Bytes) : ∀ seq : UInt8,
    packets seq (bodies ++ bodies') =
      packets seq bodies ++ packets (seq + UInt8.ofNat bodies.length) bodies' := by
  induction bodies with
  | nil =>
    intro seq
    simp [packets]
  | cons body bodies ih =>
    intro seq
    have hseq : seq + 1 + UInt8.ofNat bodies.length = seq + UInt8.ofNat (bodies.length + 1) := by
      rw [UInt8.ofNat_add, UInt8.add_assoc, UInt8.add_comm 1]
      rfl
    rw [List.cons_append, packets, packets, ih, hseq]
    rfl

theorem length_packets (bodies : List Bytes) : ∀ seq : UInt8,
    (packets seq bodies).length = bodies.length := by
  induction bodies with
  | nil => exact fun _ => rfl
  | cons body bodies ih =>
    intro seq
    rw [packets, List.length_cons, List.length_cons, ih]

/-! ## The invariant -/

/-- More events leave the place where it is. -/
theorem BeforePlace.added {h h' : History} {place : Option EventDataInfo} {before : List EventData}
    (hb : BeforePlace h place before) (hgrows : h.accepted <+: h'.accepted) :
    BeforePlace h' place before := by
  cases place with
  | none => exact hb
  | some info =>
    obtain ⟨xs, x, after, haccepted, hbefore, hinfo⟩ := hb
    obtain ⟨more, hmore⟩ := hgrows
    refine ⟨xs, x, after ++ more, ?_, hbefore, hinfo⟩
    rw [← hmore, haccepted, List.append_assoc]
    rfl

/-- The packets are a first part of those for accepted events from the place on. -/
def Fed (φ : Feed) : Prop :=
  ∃ before sent, BeforePlace φ.repl.history φ.place before ∧
    before ++ sent <+: φ.repl.history.accepted.map AcceptedEvent.data ∧
    φ.wire <+: packets φ.first (eventBodies sent)

variable (cx) in
/-- A transfer that goes on has sent all packets of the events before its batch. -/
structure Feeding (φ : Feed) (t : ReplicationTransfer) (before sent got events : List EventData) :
    Prop where
  sending : Sending cx φ.repl.history t (before ++ sent) got events
  place : BeforePlace φ.repl.history φ.place before
  wire : φ.wire = packets φ.first (eventBodies sent)
  seq : φ.seq = φ.first + UInt8.ofNat (eventBodies sent).length

theorem Feeding.fed {φ : Feed} {t : ReplicationTransfer} {before sent got events : List EventData}
    (h : Feeding cx φ t before sent got events) : Fed φ := by
  refine ⟨before, sent, h.place, ⟨got ++ events, ?_⟩, ?_⟩
  · rw [h.sending.split, List.append_assoc (before ++ sent)]
  · rw [h.wire]

variable (cx) in
structure FeedInv (φ : Feed) : Prop where
  chain : ChainInv cx φ.repl.history
  fed : Fed φ
  feeding : ∀ t, φ.repl.transfer = some t → ∃ before sent got events,
    Feeding cx φ t before sent got events

/-- A batch goes on or ends, and nothing is sent. -/
theorem Feeding.unsent {φ : Feed} {t t' : ReplicationTransfer}
    {before sent got got' events events' : List EventData} {σ : ReplState}
    (h : Feeding cx φ t before sent got events)
    (hs : Sending cx σ.history t' (before ++ sent) got' events')
    (hgrows : φ.repl.history.accepted <+: σ.history.accepted) :
    Feeding cx { φ with repl := σ } t' before sent got' events' :=
  ⟨hs, h.place.added hgrows, h.wire, h.seq⟩

theorem Fed.added {φ : Feed} (h : Fed φ) {σ : ReplState}
    (hgrows : φ.repl.history.accepted <+: σ.history.accepted) : Fed { φ with repl := σ } := by
  obtain ⟨before, sent, hplace, hsent, hwire⟩ := h
  exact ⟨before, sent, hplace.added hgrows, hsent.trans (hgrows.map _), hwire⟩

theorem accepted_addEvent (h : History) (maxSize : Nat) (master : MasterInfo) (data : EventData) :
    h.accepted <+: (historyStep cx h (.addEvent maxSize master data)).accepted := by
  simp only [historyStep]
  split
  · exact List.prefix_append _ _
  · exact List.prefix_refl _

theorem FeedInv.execute {φ : Feed} (hinv : FeedInv cx φ) (env : LocalEnv) (i : Nat) {e : Entry}
    (hsent : Sent cx φ.repl (.execute env i e)) (hnew : NewGtid cx φ.repl (.execute env i e)) :
    FeedInv cx { φ with repl := executeStep cx env i e φ.repl } := by
  rcases history_executeStep env i e φ.repl with hsame | ⟨data, hacc, hadd, hid, hgtid, hlt, hsum⟩
  · have hgrows : φ.repl.history.accepted <+: (executeStep cx env i e φ.repl).history.accepted := by
      rw [hsame]
    refine ⟨hsame ▸ hinv.chain, hinv.fed.added hgrows, ?_⟩
    intro t ht
    rw [transfer_executeStep] at ht
    obtain ⟨before, sent, got, events, hf⟩ := hinv.feeding t ht
    exact ⟨before, sent, got, events, hf.unsent (hsame ▸ hf.sending) hgrows⟩
  · obtain ⟨hparsed, hser⟩ := hsent data hacc
    have hok : Addable cx (.addEvent env.maxEventFileSize φ.repl.master data) := ⟨hgtid, hlt, hser⟩
    have hchain := hinv.chain.added hok hid hparsed (hnew data hacc) hsum
    have hgrows : φ.repl.history.accepted <+: (executeStep cx env i e φ.repl).history.accepted := by
      rw [hadd]
      exact accepted_addEvent _ _ _ _
    refine ⟨hadd ▸ hchain, hinv.fed.added hgrows, ?_⟩
    intro t ht
    rw [transfer_executeStep] at ht
    obtain ⟨before, sent, got, events, hf⟩ := hinv.feeding t ht
    obtain ⟨events', hs⟩ := hf.sending.added hinv.chain hok hchain
    exact ⟨before, sent, got, events', hf.unsent (hadd ▸ hs) hgrows⟩

/-- A sign-up starts anew. -/
theorem FeedInv.signUp {φ : Feed} (hinv : FeedInv cx φ) (gtids : List Bytes) (seq : UInt8) :
    FeedInv cx
      { repl := signUpStep cx gtids φ.repl
        place := if (signUpStep cx gtids φ.repl).transfer.isSome then signUpPlace cx gtids φ.repl
          else none
        first := seq
        seq := seq } := by
  have hlooked := hinv.chain.getLastGtid gtids
  have hnone : ∀ σ : ReplState, σ.transfer = none → ChainInv cx σ.history → FeedInv cx
      { repl := σ
        place := if σ.transfer.isSome then signUpPlace cx gtids φ.repl else none
        first := seq
        seq := seq } := by
    intro σ hσ hchain
    refine ⟨hchain, ⟨[], [], ?_, List.nil_prefix, List.nil_prefix⟩, ?_⟩
    · rw [hσ]
      rfl
    · intro t ht
      rw [hσ] at ht
      cases ht
  simp only [signUpStep]
  split
  · exact hnone _ rfl hlooked
  · split
    · rename_i hok
      obtain ⟨before, events, hs, hplace⟩ := hlooked.sending_reSet_at hok
      have hfeeding : Feeding cx
          { repl :=
              { φ.repl with
                history := historyStep cx (historyStep cx φ.repl.history (.getLastGtid gtids))
                  (.reSet (getLastGtid cx φ.repl.history.store gtids).2.1)
                transfer := some {} }
            place := signUpPlace cx gtids φ.repl
            first := seq
            seq := seq } {} before [] [] events :=
        ⟨by rwa [List.append_nil], hplace, rfl, by simp [eventBodies]⟩
      refine ⟨hlooked.reSet _, hfeeding.fed, ?_⟩
      rintro t ⟨⟩
      exact ⟨before, [], [], events, hfeeding⟩
    · exact hnone _ rfl (hlooked.reSet _)

/-- At the end of a batch its packets are sent, up to a send that fails. -/
theorem FeedInv.count {φ : Feed} (hinv : FeedInv cx φ) {checksum : Nat} {b : Batch}
    (ht : φ.repl.transfer = some { checksum := checksum, batch := some b }) (hdone : b.done = true)
    (sends : Nat) :
    FeedInv cx (φ.send
      { φ.repl with
        transfer := if (parseEventList b.data).1 = .ok then
            some { checksum := (b.count φ.repl.history.store checksum).checksum }
          else none } b.data sends) := by
  obtain ⟨before, sent, got, events, hf⟩ := hinv.feeding _ ht
  obtain ⟨x, -, hlast, hparse, -, hcount⟩ := hf.sending.count hinv.chain hdone
  have hbodies : withCharset (parseEventList b.data).2 = eventBodies got := by
    obtain ⟨hdata, -, -⟩ := hf.sending.taken
    rw [hdata]
    apply withCharset_batch
    intro r hr
    have hmem : r ∈ φ.repl.history.accepted.map AcceptedEvent.data := by
      rw [hf.sending.split]
      simp [hr]
    obtain ⟨y, hy, rfl⟩ := List.mem_map.mp hmem
    exact (hinv.chain.parsed y hy).1
  -- All packets of the batch, as if no send failed.
  have hpackets : packets φ.first (eventBodies (sent ++ got)) =
      φ.wire ++ packets φ.seq (eventBodies got) := by
    rw [eventBodies_append, packets_append, hf.wire, hf.seq]
  have hcounted := hf.sending.counted hlast
  rw [List.append_assoc] at hcounted
  simp only [Feed.send, hparse, if_true, ne_eq, not_true, if_false, hbodies, hcount]
  by_cases hall : (eventBodies got).length ≤ sends
  · have htake : (packets φ.seq (eventBodies got)).take sends = packets φ.seq (eventBodies got) :=
      List.take_of_length_le (by rwa [length_packets])
    have hmin : min (eventBodies got).length (sends + 1) = (eventBodies got).length :=
      Nat.min_eq_left (by omega)
    have hfeeding : Feeding cx
        { φ with
          repl := { φ.repl with transfer := some { checksum := x.data.checksum } }
          seq := φ.seq + UInt8.ofNat (eventBodies got).length
          wire := φ.wire ++ packets φ.seq (eventBodies got) }
        { checksum := x.data.checksum } before (sent ++ got) [] events := by
      refine ⟨hcounted, hf.place, hpackets.symm, ?_⟩
      show φ.seq + _ = φ.first + _
      rw [eventBodies_append, List.length_append, UInt8.ofNat_add, hf.seq, UInt8.add_assoc]
    simp only [if_pos hall, htake, hmin]
    refine ⟨hinv.chain, hfeeding.fed, ?_⟩
    rintro t ⟨⟩
    exact ⟨before, sent ++ got, [], events, hfeeding⟩
  · simp only [if_neg hall]
    refine ⟨hinv.chain, ⟨before, sent ++ got, hf.place, ⟨events, ?_⟩, ?_⟩, ?_⟩
    · rw [hcounted.split, List.append_nil]
    · show φ.wire ++ _ <+: _
      rw [hpackets]
      exact (List.prefix_append_right_inj _).mpr (List.take_prefix _ _)
    · rintro t ⟨⟩

theorem FeedInv.step {φ φ' : Feed} {a : FeedAction} (hinv : FeedInv cx φ) (hok : Feeds cx φ a)
    (hstep : feedStep cx φ a = some φ') : FeedInv cx φ' := by
  obtain ⟨hsent, hnew, hpush⟩ := hok
  obtain ⟨σ, hrepl, hφ⟩ := Option.map_eq_some_iff.mp hstep
  cases haction : a.action with
  | execute env i e =>
    rw [haction] at hrepl hφ hsent hnew
    cases hrepl
    subst hφ
    exact hinv.execute env i hsent hnew
  | signUp gtids =>
    rw [haction] at hrepl hφ
    cases hrepl
    subst hφ
    exact hinv.signUp gtids a.seq
  | start pushLimit =>
    rw [haction] at hrepl hφ hpush
    subst hφ
    simp only [replStep] at hrepl
    split at hrepl
    · rename_i checksum ht
      cases hrepl
      obtain ⟨before, sent, got, events, hf⟩ := hinv.feeding _ ht
      refine ⟨hinv.chain, hinv.fed, ?_⟩
      rintro t ⟨⟩
      exact ⟨before, sent, got, events, hf.unsent (hf.sending.start hpush) (List.prefix_refl _)⟩
    · cases hrepl
  | getEvent =>
    rw [haction] at hrepl hφ
    subst hφ
    simp only [replStep] at hrepl
    split at hrepl
    · rename_i checksum b ht
      split at hrepl
      · cases hrepl
      · cases hrepl
        obtain ⟨before, sent, got, events, hf⟩ := hinv.feeding _ ht
        obtain ⟨rd, t', got', events', hget, htake, hs⟩ := hf.sending.getEvent
        -- Reading moves the reader and leaves the rest of the store.
        have hstore : { φ.repl.history with store := (Store.getEvent cx φ.repl.history.store).2.2 } =
            φ.repl.history.withReader rd := by
          rw [hget]
          rfl
        rw [hstore, htake]
        refine ⟨hinv.chain.withReader rd, hinv.fed.added (List.prefix_refl _), ?_⟩
        rintro t ⟨⟩
        exact ⟨before, sent, got', events', hf.unsent hs (List.prefix_refl _)⟩
    · cases hrepl
  | count =>
    rw [haction] at hrepl hφ
    subst hφ
    simp only [replStep] at hrepl
    split at hrepl
    · rename_i checksum b ht
      split at hrepl
      · rename_i hdone
        cases hrepl
        simp only [ht]
        exact hinv.count ht hdone.1 a.sends
      · cases hrepl
    · cases hrepl

end PhxSql.Repl
