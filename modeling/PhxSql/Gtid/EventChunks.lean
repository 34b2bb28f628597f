import PhxSql.Gtid.EventReads

/-!
# A buffer as a row of events

`ParseEventList` returns `OK` exactly if the buffer is a row of events, each with a size field that
says its length, and then gives these events (`chunked_iff`). The GTID of an event, however, is
looked for in all that is left of the buffer: an event of a GTID type that is too short to hold its
GTID gets one from the bytes of later events. `rowEvents` is the result in terms of the row; the
rest of the module is about rows.
-/

set_option autoImplicit false

namespace PhxSql.Gtid

open PhxSql.Proto PhxSql.Lib

/-! ## Rows of events -/

/-- The buffer is the given events one after another. Each has its type and its size in the bytes
from its start on, which may be those of later events if it is short. -/
def Chunked : List Bytes → Bytes → Prop
  | [], buffer => buffer = []
  | chunk :: chunks, buffer =>
    13 ≤ buffer.length ∧ typeByte buffer < 200 ∧ getBuffer buffer 9 4 ≠ 0 ∧
      getBuffer buffer 9 4 = chunk.length ∧ ∃ rest, buffer = chunk ++ rest ∧ Chunked chunks rest

/-- The GTID that `ParseEvent` finds in a buffer. -/
def gtidOf (buffer : Bytes) : Bytes :=
  (parseEvent buffer).2.gtid

/-- What `ParseEventList` gives for a row of events. -/
def rowEvents : List Bytes → List (Bytes × Bytes)
  | [] => []
  | chunk :: chunks => (chunk, gtidOf (chunk ++ chunks.flatten)) :: rowEvents chunks

/-- What is left of the buffer at each event of a row. -/
def rowRests : List Bytes → List Bytes
  | [] => []
  | chunk :: chunks => (chunk ++ chunks.flatten) :: rowRests chunks

theorem map_fst_rowEvents (chunks : List Bytes) : (rowEvents chunks).map Prod.fst = chunks := by
  induction chunks with
  | nil => rfl
  | cons chunk chunks ih => rw [rowEvents, List.map_cons, ih]

theorem Chunked.flatten (chunks : List Bytes) : ∀ {buffer : Bytes},
    Chunked chunks buffer → chunks.flatten = buffer := by
  induction chunks with
  | nil =>
    intro buffer h
    exact Eq.symm h
  | cons chunk chunks ih =>
    rintro buffer ⟨-, -, -, -, rest, rfl, hrest⟩
    rw [List.flatten_cons, ih hrest]

theorem eventSize_of_ok {buffer : Bytes} (hlong : 13 ≤ buffer.length)
    (htype : typeByte buffer < 200) : (parseEvent buffer).2.eventSize = getBuffer buffer 9 4 := by
  have htype' : ¬ 200 ≤ getBuffer buffer 4 1 := Nat.not_le.mpr htype
  rw [parseEvent, if_neg (Nat.not_lt.mpr hlong)]
  simp only
  rw [if_neg htype']

/-- The loop accepts the first event of a row. -/
theorem Chunked.accepted {chunk : Bytes} {chunks : List Bytes} {buffer : Bytes}
    (h : Chunked (chunk :: chunks) buffer) :
    EventAccepted buffer ∧ (parseEvent buffer).2.eventSize = chunk.length ∧
      buffer = chunk ++ chunks.flatten ∧ Chunked chunks chunks.flatten := by
  obtain ⟨hlong, htype, hne, hsize, rest, rfl, hrest⟩ := h
  have heq := eventSize_of_ok hlong htype
  rw [hrest.flatten]
  refine ⟨⟨(parseEvent_ok_iff _).mpr ⟨hlong, htype⟩, by rwa [heq], ?_⟩, heq.trans hsize, rfl, hrest⟩
  rw [heq, hsize, List.length_append]
  omega

theorem EventAccepted.ne_nil {buffer : Bytes} (h : EventAccepted buffer) : buffer ≠ [] := by
  have hlong := length_of_parseEvent_ok h.1
  intro hnil
  rw [hnil] at hlong
  cases hlong

/-- The result for a row of events. -/
theorem Chunked.parseEventList_eq (chunks : List Bytes) : ∀ {buffer : Bytes},
    Chunked chunks buffer → parseEventList buffer = (.ok, rowEvents chunks) := by
  induction chunks with
  | nil =>
    intro buffer h
    obtain rfl : buffer = [] := h
    rfl
  | cons chunk chunks ih =>
    intro buffer h
    obtain ⟨haccepted, hsize, hbuffer, hrest⟩ := h.accepted
    have hne := haccepted.ne_nil
    obtain ⟨hok, hpos, hle⟩ := haccepted
    rw [parseEventList_cons hne hok (Nat.pos_of_ne_zero hpos) hle, hsize]
    have hdrop : buffer.drop chunk.length = chunks.flatten := by
      rw [hbuffer, List.drop_left]
    have htake : buffer.take chunk.length = chunk := by
      rw [hbuffer, List.take_left]
    rw [hdrop, htake, ih hrest, rowEvents, gtidOf, ← hbuffer]

/-- A buffer that is accepted is the row of the events that are given for it. -/
theorem chunked_of_ok (n : Nat) : ∀ buffer : Bytes, buffer.length ≤ n →
    (parseEventList buffer).1 = .ok →
      Chunked ((parseEventList buffer).2.map Prod.fst) buffer := by
  -- Each event takes bytes away, so the induction is on a bound of the length.
  induction n with
  | zero =>
    intro buffer hlen _
    rw [List.length_eq_zero_iff.mp (Nat.le_zero.mp hlen)]
    rfl
  | succ n ih =>
    intro buffer hlen hok
    rcases eq_or_ne buffer [] with rfl | hne
    · rfl
    · obtain ⟨hfirst, hpos, hle⟩ := parseEventList_ok hne hok
      have hsplit := parseEventList_cons hne hfirst hpos hle
      obtain ⟨hlong, htype⟩ := (parseEvent_ok_iff buffer).mp hfirst
      have hsize := eventSize_of_ok hlong htype
      rw [hsplit] at hok ⊢
      have hrest := ih _ (by rw [List.length_drop]; omega) hok
      refine ⟨hlong, htype, by omega, ?_, _, (List.take_append_drop _ buffer).symm, hrest⟩
      rw [List.length_take, ← hsize]
      omega

/-- The events of a buffer are its only row. -/
theorem chunked_iff (chunks : List Bytes) (buffer : Bytes) :
    Chunked chunks buffer ↔
      (parseEventList buffer).1 = .ok ∧ (parseEventList buffer).2.map Prod.fst = chunks := by
  constructor
  · intro h
    rw [h.parseEventList_eq]
    exact ⟨rfl, map_fst_rowEvents chunks⟩
  · rintro ⟨hok, rfl⟩
    exact chunked_of_ok _ buffer (Nat.le_refl _) hok

/-- The calls of `ParseEvent` for a row. -/
theorem Chunked.reached_eq (chunks : List Bytes) : ∀ {buffer : Bytes} {fuel : Nat},
    Chunked chunks buffer → buffer.length ≤ fuel → reached fuel buffer = rowRests chunks := by
  induction chunks with
  | nil =>
    intro buffer fuel h _
    obtain rfl : buffer = [] := h
    cases fuel with
    | zero => rfl
    | succ fuel => rfl
  | cons chunk chunks ih =>
    intro buffer fuel h hfuel
    obtain ⟨haccepted, hsize, hbuffer, hrest⟩ := h.accepted
    have hpos : chunk.length ≠ 0 := hsize ▸ haccepted.2.1
    have hempty : ¬ buffer.isEmpty = true := by
      simpa using haccepted.ne_nil
    have hlen : buffer.length = chunk.length + chunks.flatten.length := by
      rw [hbuffer, List.length_append]
    cases fuel with
    | zero => omega
    | succ fuel =>
      have hdrop : buffer.drop chunk.length = chunks.flatten := by
        rw [hbuffer, List.drop_left]
      rw [reached, if_neg hempty, if_pos haccepted, hsize, hdrop, ih hrest (by omega), rowRests,
        ← hbuffer]

theorem Chunked.append (chunks chunks' : List Bytes) (buffer' : Bytes)
    (h' : Chunked chunks' buffer') : ∀ {buffer : Bytes}, Chunked chunks buffer →
      Chunked (chunks ++ chunks') (buffer ++ buffer') := by
  have hread : ∀ {buffer : Bytes} {pos len : Nat}, pos + len ≤ buffer.length →
      getBuffer (buffer ++ buffer') pos len = getBuffer buffer pos len := by
    intro buffer pos len hle
    rw [getBuffer, readAt_append_of_le buffer' hle, getBuffer]
  induction chunks with
  | nil =>
    intro buffer h
    obtain rfl : buffer = [] := h
    exact h'
  | cons chunk chunks ih =>
    rintro buffer ⟨hlong, htype, hne, hsize, rest, hbuffer, hrest⟩
    refine ⟨by rw [List.length_append]; omega, ?_, ?_, ?_, rest ++ buffer', ?_, ih hrest⟩
    · rw [typeByte, hread (by omega)]
      exact htype
    · rw [hread (by omega)]
      exact hne
    · rw [hread (by omega)]
      exact hsize
    · rw [hbuffer, List.append_assoc]

/-! ## The GTID of an event -/

/-- How many bytes of an event hold its GTID, by its type. -/
def gtidEnd (eventType : Nat) : Option Nat :=
  if eventType = 162 then some 31 else if eventType = 33 then some 44 else none

/-- A GTID ends behind the fields that every event has. -/
theorem lt_gtidEnd {eventType n : Nat} (h : gtidEnd eventType = some n) : 13 < n := by
  unfold gtidEnd at h
  split at h
  · obtain rfl := Option.some.inj h
    decide
  · split at h
    · obtain rfl := Option.some.inj h
      decide
    · cases h

theorem gtidOf_of_short {buffer : Bytes} (h : buffer.length < 13) : gtidOf buffer = [] := by
  rw [gtidOf, parseEvent, if_pos h]

theorem gtidOf_of_long {buffer : Bytes} (hlong : 13 ≤ buffer.length)
    (htype : typeByte buffer < 200) :
    gtidOf buffer = eventGtid buffer (typeByte buffer) (getBuffer buffer 5 4) := by
  have htype' : ¬ 200 ≤ getBuffer buffer 4 1 := Nat.not_le.mpr htype
  rw [gtidOf, parseEvent, if_neg (Nat.not_lt.mpr hlong)]
  simp only
  rw [if_neg htype']
  rfl

theorem typeByte_append {buffer : Bytes} (hlong : 13 ≤ buffer.length) (rest : Bytes) :
    typeByte (buffer ++ rest) = typeByte buffer := by
  rw [typeByte, getBuffer, readAt_append_of_le rest (by omega), typeByte, getBuffer]

/-- Where the bytes of the GTID are there, it is found, and more bytes do not change it. -/
theorem gtidOf_append {buffer : Bytes} {n : Nat} (hlong : 13 ≤ buffer.length)
    (htype : typeByte buffer < 200) (hend : gtidEnd (typeByte buffer) = some n)
    (hn : n ≤ buffer.length) (rest : Bytes) :
    gtidOf (buffer ++ rest) = gtidOf buffer ∧ gtidOf buffer ≠ [] := by
  have hread : ∀ {pos len : Nat}, pos + len ≤ buffer.length →
      readAt (buffer ++ rest) pos len = readAt buffer pos len := fun h => readAt_append_of_le rest h
  have hlen : (buffer ++ rest).length = buffer.length + rest.length := List.length_append
  rw [gtidOf_of_long (by omega) (by rw [typeByte_append hlong]; exact htype),
    gtidOf_of_long hlong htype, typeByte_append hlong]
  unfold gtidEnd at hend
  unfold eventGtid
  split at hend
  · rename_i hmaria
    obtain rfl := Option.some.inj hend
    rw [if_pos hmaria, if_pos hmaria, if_pos (by omega), if_pos (by omega)]
    simp only [getBuffer, hread (show 27 + 4 ≤ buffer.length by omega),
      hread (show 19 + 8 ≤ buffer.length by omega), hread (show 5 + 4 ≤ buffer.length by omega)]
    exact ⟨trivial, by simp⟩
  · rename_i hmaria
    split at hend
    · rename_i hpercona
      obtain rfl := Option.some.inj hend
      rw [if_neg hmaria, if_neg hmaria, if_pos hpercona, if_pos hpercona, if_pos (by omega),
        if_pos (by omega)]
      simp only [getBuffer, hread (show 20 + 16 ≤ buffer.length by omega),
        hread (show 36 + 8 ≤ buffer.length by omega)]
      exact ⟨trivial, by simp [genGTID]⟩
    · cases hend

/-- Where they are not there, no GTID is found, if `ParseEvent` does not read past the end. -/
theorem gtidOf_eq_nil {buffer : Bytes} (hfit : ReadsFit buffer) (hlong : 13 ≤ buffer.length)
    (htype : typeByte buffer < 200)
    (hend : ∀ n, gtidEnd (typeByte buffer) = some n → buffer.length < n) : gtidOf buffer = [] := by
  rw [gtidOf_of_long hlong htype]
  unfold gtidEnd at hend
  unfold eventGtid
  split
  · rename_i hmaria
    rw [if_pos hmaria] at hend
    have hlt := hend 31 rfl
    rw [if_neg (by omega)]
  · -- Here the bound on the reads matters: below 19 bytes the comparison would succeed.
    rename_i hmaria
    rw [if_neg hmaria] at hend
    split
    · rename_i hpercona
      rw [if_pos hpercona] at hend
      have hlt := hend 44 rfl
      have hge := (hfit hlong htype).2.1 hpercona
      rw [if_neg (by omega)]
    · rfl

/-- An event whose GTID would end within the buffer holds it whole. -/
def HoldsGtid (chunk rest : Bytes) : Prop :=
  ∀ n, gtidEnd (typeByte (chunk ++ rest)) = some n → n ≤ (chunk ++ rest).length → n ≤ chunk.length

/-- The later bytes do not change the GTID of a part that holds it. -/
theorem gtidOf_eq_of_holds {chunk rest : Bytes} (hholds : HoldsGtid chunk rest)
    (hfit : ReadsFit chunk) (hfit' : ReadsFit (chunk ++ rest)) (hlong : 13 ≤ chunk.length)
    (htype : typeByte chunk < 200) : gtidOf (chunk ++ rest) = gtidOf chunk := by
  have htype' : typeByte (chunk ++ rest) = typeByte chunk := typeByte_append hlong rest
  have hlong' : 13 ≤ (chunk ++ rest).length := by
    rw [List.length_append]
    omega
  by_cases hends : ∃ n, gtidEnd (typeByte chunk) = some n ∧ n ≤ (chunk ++ rest).length
  · obtain ⟨n, hend, hn⟩ := hends
    exact (gtidOf_append hlong htype hend (hholds n (htype'.symm ▸ hend) hn) rest).1
  · have hshort : ∀ n, gtidEnd (typeByte chunk) = some n → (chunk ++ rest).length < n :=
      fun n hend => Nat.lt_of_not_le fun hn => hends ⟨n, hend, hn⟩
    rw [gtidOf_eq_nil hfit' hlong' (htype'.symm ▸ htype) (fun n hend => hshort n (htype' ▸ hend)),
      gtidOf_eq_nil hfit hlong htype]
    intro n hend
    have hlt := hshort n hend
    rw [List.length_append] at hlt
    omega

/-- The GTID found in the buffer is that of the event alone exactly if the event holds it. -/
theorem gtidOf_eq_iff {chunk rest : Bytes} (hfit : ReadsFit chunk)
    (hfit' : ReadsFit (chunk ++ rest)) (hlong : 13 ≤ (chunk ++ rest).length)
    (htype : typeByte (chunk ++ rest) < 200) :
    gtidOf (chunk ++ rest) = gtidOf chunk ↔ HoldsGtid chunk rest := by
  by_cases hhead : 13 ≤ chunk.length
  · have htype' : typeByte (chunk ++ rest) = typeByte chunk := typeByte_append hhead rest
    refine ⟨?_, fun hholds => gtidOf_eq_of_holds hholds hfit hfit' hhead (htype' ▸ htype)⟩
    intro heq n hend hn
    by_contra hcut
    -- The buffer has the GTID and the event alone does not.
    have hfound := (gtidOf_append hlong htype hend hn []).2
    rw [heq, gtidOf_eq_nil hfit hhead (htype' ▸ htype)] at hfound
    · exact hfound rfl
    · intro m hm
      rw [← htype', hend] at hm
      obtain rfl := Option.some.inj hm
      omega
  · -- `ParseEvent` rejects the event alone.
    rw [gtidOf_of_short (Nat.lt_of_not_le hhead)]
    constructor
    · intro heq n hend hn
      exact absurd heq (gtidOf_append hlong htype hend hn []).2
    · intro hholds
      apply gtidOf_eq_nil hfit' hlong htype
      intro n hend
      by_contra hn
      have hle := hholds n hend (Nat.le_of_not_lt hn)
      have hbig := lt_gtidEnd hend
      omega

/-! ## The GTIDs of a row -/

/-- Every event of the row holds its GTID. -/
def RowHoldsGtids : List Bytes → Prop
  | [] => True
  | chunk :: chunks => HoldsGtid chunk chunks.flatten ∧ RowHoldsGtids chunks

theorem rowEvents_alone_iff (chunks : List Bytes) : ∀ {buffer : Bytes}, Chunked chunks buffer →
    (∀ rest ∈ rowRests chunks, ReadsFit rest) → (∀ chunk ∈ chunks, ReadsFit chunk) →
    ((∀ e ∈ rowEvents chunks, e.2 = gtidOf e.1) ↔ RowHoldsGtids chunks) := by
  induction chunks with
  | nil =>
    intro buffer _ _ _
    exact iff_of_true (fun e he => absurd he List.not_mem_nil) trivial
  | cons chunk chunks ih =>
    intro buffer h hrests hchunks
    obtain ⟨haccepted, -, hbuffer, hrest⟩ := h.accepted
    obtain ⟨hlong, htype⟩ := (parseEvent_ok_iff buffer).mp haccepted.1
    rw [rowRests, List.forall_mem_cons] at hrests
    rw [List.forall_mem_cons] at hchunks
    rw [hbuffer] at hlong htype
    rw [rowEvents, List.forall_mem_cons, RowHoldsGtids, ih hrest hrests.2 hchunks.2,
      gtidOf_eq_iff hchunks.1 hrests.1 hlong htype]

/-- A row that holds its GTIDs, cut in two, gives the events of both parts. -/
theorem rowEvents_append (chunks chunks' : List Bytes) : ∀ {buffer : Bytes},
    Chunked chunks buffer → RowHoldsGtids (chunks ++ chunks') →
    (∀ rest ∈ rowRests (chunks ++ chunks'), ReadsFit rest) →
    (∀ rest ∈ rowRests chunks, ReadsFit rest) →
    rowEvents (chunks ++ chunks') = rowEvents chunks ++ rowEvents chunks' := by
  induction chunks with
  | nil =>
    intro buffer _ _ _ _
    rfl
  | cons chunk chunks ih =>
    intro buffer h hholds hrests hrests'
    obtain ⟨haccepted, -, hbuffer, hrest⟩ := h.accepted
    obtain ⟨hlong, htype⟩ := (parseEvent_ok_iff buffer).mp haccepted.1
    rw [hbuffer] at hlong htype
    rw [List.cons_append, rowRests, List.forall_mem_cons] at hrests
    rw [rowRests, List.forall_mem_cons] at hrests'
    rw [List.cons_append, RowHoldsGtids] at hholds
    obtain ⟨hfirst, hlater⟩ := hholds
    rw [List.flatten_append, ← List.append_assoc] at hrests
    rw [List.flatten_append] at hfirst
    -- The event holds its GTID, so the first buffer from it on does too.
    have hpart : HoldsGtid (chunk ++ chunks.flatten) chunks'.flatten := by
      intro n hend hn
      rw [List.append_assoc] at hend hn
      have hle := hfirst n hend hn
      rw [List.length_append]
      omega
    have hgtid := gtidOf_eq_of_holds hpart hrests'.1 hrests.1 hlong htype
    rw [List.cons_append, rowEvents, rowEvents, List.flatten_append, ← List.append_assoc, hgtid,
      ih hrest hlater hrests.2 hrests'.2, List.cons_append]

/-! ## The result on a buffer -/

/-- `event_list` of `ParseEventList`; with `need_charset` a zero byte stands before each event. -/
def eventList (needCharset : Bool) (events : List (Bytes × Bytes)) : List Bytes :=
  events.map fun e => if needCharset then 0 :: e.1 else e.1

/-- `gtid_list` of `ParseEventList`. -/
def gtidList (events : List (Bytes × Bytes)) : List Bytes :=
  events.map Prod.snd

/-- No read of `ParseEventList` on the buffer, or of `ParseEvent` on one of its events alone, leaves
the buffer or the event. -/
def ReadsInside (buffer : Bytes) : Prop :=
  Inside buffer.length (eventListReads buffer.length buffer) ∧
    ∀ e ∈ (parseEventList buffer).2, Inside e.1.length (eventReads e.1)

instance (buffer : Bytes) : Decidable (ReadsInside buffer) :=
  inferInstanceAs (Decidable (_ ∧ _))

/-- If the buffer is accepted, each GTID is that of its event alone, and if it is two accepted
buffers one after another, of which the first is read only inside, the result is that of both. -/
def GtidsAlone (buffer : Bytes) : Prop :=
  (parseEventList buffer).1 = .ok →
    (∀ e ∈ (parseEventList buffer).2, e.2 = gtidOf e.1) ∧
    ∀ a a', buffer = a ++ a' → (parseEventList a).1 = .ok → (parseEventList a').1 = .ok →
      Inside a.length (eventListReads a.length a) →
      (parseEventList buffer).2 = (parseEventList a).2 ++ (parseEventList a').2

/-- The last GTID that is not empty. -/
theorem maxGtid_eq (events : List (Bytes × Bytes)) :
    maxGtid events = (((gtidList events).filter fun g => g ≠ []).getLast?).getD [] := by
  induction events using List.reverseRecOn with
  | nil => rfl
  | append_singleton events e ih =>
    rw [maxGtid_concat, gtidList, List.map_append, List.filter_append, List.map_cons, List.map_nil]
    by_cases hne : e.2 = []
    · rw [if_neg (not_not.mpr hne), ih, List.filter_cons_of_neg (by simp [hne]), List.filter_nil,
        List.append_nil]
      rfl
    · rw [if_pos hne, List.filter_cons_of_pos (by simp [hne]), List.filter_nil,
        List.getLast?_concat]
      rfl

theorem gtidsAlone_iff {buffer : Bytes} (hsize : buffer.length < 2 ^ 64)
    (hinside : ReadsInside buffer) :
    GtidsAlone buffer ↔ ∀ chunks, Chunked chunks buffer → RowHoldsGtids chunks := by
  -- In terms of the row: what is read from each event on, and of each event alone, is there.
  have hfit : ∀ chunks, Chunked chunks buffer →
      (∀ rest ∈ rowRests chunks, ReadsFit rest) ∧ ∀ chunk ∈ chunks, ReadsFit chunk := by
    intro chunks h
    have hlist := (inside_eventListReads _ buffer hsize).mp hinside.1
    rw [Chunked.reached_eq chunks h (Nat.le_refl _)] at hlist
    refine ⟨hlist, ?_⟩
    intro chunk hchunk
    have hmem : chunk ∈ (parseEventList buffer).2.map Prod.fst := by
      rw [((chunked_iff _ _).mp h).2]
      exact hchunk
    obtain ⟨e, he, rfl⟩ := List.mem_map.mp hmem
    have hle : e.1.length ≤ buffer.length := by
      rw [← h.flatten, ← ((chunked_iff _ _).mp h).2]
      exact List.Sublist.length_le (List.sublist_flatten_of_mem (List.mem_map.mpr ⟨e, he, rfl⟩))
    exact (inside_eventReads (by omega)).mp (hinside.2 e he)
  constructor
  · intro halone chunks h
    obtain ⟨hrests, hchunks⟩ := hfit chunks h
    have hgtids := (halone ((chunked_iff _ _).mp h).1).1
    rw [h.parseEventList_eq] at hgtids
    exact (rowEvents_alone_iff chunks h hrests hchunks).mp hgtids
  · intro hholds hok
    have h := (chunked_iff _ buffer).mpr ⟨hok, rfl⟩
    obtain ⟨hrests, hchunks⟩ := hfit _ h
    constructor
    · have hgtids := (rowEvents_alone_iff _ h hrests hchunks).mpr (hholds _ h)
      rw [h.parseEventList_eq]
      exact hgtids
    · rintro a a' rfl ha ha' hread
      have hchunksA := (chunked_iff _ a).mpr ⟨ha, rfl⟩
      have hchunksA' := (chunked_iff _ a').mpr ⟨ha', rfl⟩
      have hboth := Chunked.append _ _ a' hchunksA' hchunksA
      have hlen : a.length < 2 ^ 64 := by
        rw [List.length_append] at hsize
        omega
      have hrestsA := (inside_eventListReads _ a hlen).mp hread
      rw [Chunked.reached_eq _ hchunksA (Nat.le_refl a.length)] at hrestsA
      have hsplit := rowEvents_append _ _ hchunksA (hholds _ hboth) (hfit _ hboth).1 hrestsA
      rw [hboth.parseEventList_eq, hsplit, hchunksA.parseEventList_eq,
        hchunksA'.parseEventList_eq, map_fst_rowEvents, map_fst_rowEvents]

/-- On a buffer that is read only inside, `ParseEventList` ends, returns `OK` exactly if the buffer
is a row of events, gives the only such row, as many GTIDs, and as the newest GTID the last that is
not empty. The GTIDs are those of the events alone exactly if every event holds its GTID. -/
theorem parseEventList_exact_iff {buffer : Bytes} (hsize : buffer.length < 2 ^ 64)
    (hinside : ReadsInside buffer) :
    (∀ fuel, buffer.length ≤ fuel → parseEvents fuel buffer = parseEventList buffer) ∧
    ((parseEventList buffer).1 = .ok ↔ ∃ chunks, Chunked chunks buffer) ∧
    (∀ chunks, Chunked chunks buffer →
      chunks.flatten = buffer ∧
      (∀ needCharset, eventList needCharset (parseEventList buffer).2 =
        chunks.map fun chunk => if needCharset then 0 :: chunk else chunk) ∧
      (gtidList (parseEventList buffer).2).length = chunks.length) ∧
    maxGtid (parseEventList buffer).2 =
      (((gtidList (parseEventList buffer).2).filter fun g => g ≠ []).getLast?).getD [] ∧
    (GtidsAlone buffer ↔ ∀ chunks, Chunked chunks buffer → RowHoldsGtids chunks) := by
  refine ⟨?_, ?_, ?_, maxGtid_eq _, gtidsAlone_iff hsize hinside⟩
  · intro fuel hfuel
    exact parseEvents_fuel fuel buffer.length buffer hfuel (Nat.le_refl _)
  · constructor
    · intro hok
      exact ⟨_, (chunked_iff _ buffer).mpr ⟨hok, rfl⟩⟩
    · rintro ⟨chunks, h⟩
      exact ((chunked_iff chunks buffer).mp h).1
  · intro chunks h
    have hrow := ((chunked_iff chunks buffer).mp h).2
    refine ⟨h.flatten, ?_, ?_⟩
    · intro needCharset
      rw [eventList, ← hrow, List.map_map]
      rfl
    · rw [gtidList, List.length_map, ← hrow, List.length_map]

/-- Two whole Percona GTID events. -/
def twoEvents : Bytes :=
  perconaEvent ++ perconaEvent

theorem parseEventList_exact_twoEvents : GtidsAlone twoEvents := by
  have hsize : twoEvents.length < 2 ^ 64 := by decide
  have hinside : ReadsInside twoEvents := by decide +kernel
  apply (parseEventList_exact_iff hsize hinside).2.2.2.2.mpr
  intro chunks h
  have hrow := ((chunked_iff chunks twoEvents).mp h).2
  have hparse : (parseEventList twoEvents).2.map Prod.fst = [perconaEvent, perconaEvent] := by
    decide +kernel
  obtain rfl : [perconaEvent, perconaEvent] = chunks := hparse.symm.trans hrow
  have hlen : perconaEvent.length = 44 := rfl
  have hholds : ∀ rest, typeByte (perconaEvent ++ rest) = 33 → HoldsGtid perconaEvent rest := by
    intro rest htype n hend _
    rw [htype] at hend
    obtain rfl : 44 = n := Option.some.inj hend
    exact Nat.le_of_eq hlen.symm
  exact ⟨hholds _ (by decide +kernel), hholds _ (by decide +kernel), trivial⟩

/-- An event of a GTID type with 20 bytes, and an event of another type with 30 bytes. -/
def shortGtidEvent : Bytes :=
  eventHead 33 20 ++ eventHead 0 30

/-- The first event gets a GTID from the bytes of the second one, although it has none alone. -/
theorem parseEventList_reads_later_event :
    shortGtidEvent.length < 2 ^ 64 ∧ ReadsInside shortGtidEvent ∧
      (parseEventList shortGtidEvent).1 = .ok ∧
      (parseEventList shortGtidEvent).2.map Prod.fst = [eventHead 33 20, eventHead 0 30] ∧
      gtidOf (eventHead 33 20) = [] ∧
      (gtidList (parseEventList shortGtidEvent).2).head? ≠ some [] ∧
      maxGtid (parseEventList shortGtidEvent).2 ≠ [] := by
  decide +kernel

end PhxSql.Gtid
