import PhxSql.Gtid.GtidHandler
import Mathlib.Data.List.Induction

/-!
# Splitting buffers of binlog events

`ParseEventList` finds the end of an event from its first thirteen bytes, so a buffer that parses is
split in the same way when more bytes follow it (`parseEventList_append`). The GTID of an event is
read without regard to the end of the event, so that it can change; the last GTID of a list of
buffers is still that of the last buffer, if this has one (`parseEventList_flatten`).

The GTIDs that are read have one of two text forms, on which the comparison of the index is exact
(`GtidText.eq_of_gtidRank_eq`).
-/

set_option autoImplicit false

namespace PhxSql.Gtid

open PhxSql.Proto PhxSql.Lib

/-! ## Reading at the start of a longer buffer -/

theorem readAt_append_of_le {a : Bytes} (b : Bytes) {pos len : Nat} (h : pos + len ≤ a.length) :
    readAt (a ++ b) pos len = readAt a pos len := by
  have hdrop : (a ++ b).drop pos = a.drop pos ++ b := List.drop_append_of_le_length (by omega)
  have htake : (a.drop pos ++ b).take len = (a.drop pos).take len :=
    List.take_append_of_le_length (by rw [List.length_drop]; omega)
  rw [readAt, hdrop, htake, readAt]

/-- The code and the size of an event do not depend on what follows the first thirteen bytes. -/
theorem parseEvent_append {a : Bytes} (b : Bytes) (h : 13 ≤ a.length) :
    (parseEvent (a ++ b)).1 = (parseEvent a).1 ∧
      (parseEvent (a ++ b)).2.eventSize = (parseEvent a).2.eventSize := by
  have hlen : ¬ a.length < 13 := Nat.not_lt.mpr h
  have hlen' : ¬ (a ++ b).length < 13 := by
    rw [List.length_append]
    omega
  have htype : getBuffer (a ++ b) 4 1 = getBuffer a 4 1 := by
    rw [getBuffer, readAt_append_of_le b (by omega), getBuffer]
  have hsize : getBuffer (a ++ b) 9 4 = getBuffer a 9 4 := by
    rw [getBuffer, readAt_append_of_le b (by omega), getBuffer]
  simp only [parseEvent, hlen, hlen', if_false, htype, hsize]
  split
  · exact ⟨rfl, rfl⟩
  · exact ⟨rfl, rfl⟩

theorem length_of_parseEvent_ok {a : Bytes} (h : (parseEvent a).1 = .ok) : 13 ≤ a.length := by
  by_contra hlen
  rw [parseEvent, if_pos (Nat.lt_of_not_le hlen)] at h
  cases h

/-! ## The loop -/

/-- More fuel than bytes changes nothing. -/
theorem parseEvents_fuel (fuel : Nat) :
    ∀ (fuel' : Nat) (buffer : Bytes), buffer.length ≤ fuel → buffer.length ≤ fuel' →
      parseEvents fuel buffer = parseEvents fuel' buffer := by
  have hnil : ∀ n, parseEvents n [] = (.ok, []) := by
    intro n
    cases n with
    | zero => rfl
    | succ n => rfl
  induction fuel with
  | zero =>
    intro fuel' buffer hlen _
    rw [List.length_eq_zero_iff.mp (Nat.le_zero.mp hlen), hnil, hnil]
  | succ fuel ih =>
    intro fuel' buffer hlen hlen'
    cases fuel' with
    | zero => rw [List.length_eq_zero_iff.mp (Nat.le_zero.mp hlen'), hnil, hnil]
    | succ fuel' =>
      by_cases hsize : (parseEvent buffer).2.eventSize = 0
      · simp only [parseEvents, hsize, true_or, if_true]
      · -- What is left is shorter, since an event is not empty.
        have hrest : (buffer.drop (parseEvent buffer).2.eventSize).length ≤ fuel := by
          rw [List.length_drop]
          omega
        have hrest' : (buffer.drop (parseEvent buffer).2.eventSize).length ≤ fuel' := by
          rw [List.length_drop]
          omega
        simp only [parseEvents, ih fuel' _ hrest hrest']

@[simp] theorem parseEventList_nil : parseEventList [] = (.ok, []) := rfl

/-- The first event of a buffer, and the rest. -/
theorem parseEventList_cons {buffer : Bytes} (hne : buffer ≠ []) (hok : (parseEvent buffer).1 = .ok)
    (hpos : 0 < (parseEvent buffer).2.eventSize)
    (hle : (parseEvent buffer).2.eventSize ≤ buffer.length) :
    parseEventList buffer =
      ((parseEventList (buffer.drop (parseEvent buffer).2.eventSize)).1,
        (buffer.take (parseEvent buffer).2.eventSize, (parseEvent buffer).2.gtid) ::
          (parseEventList (buffer.drop (parseEvent buffer).2.eventSize)).2) := by
  obtain ⟨n, hn⟩ := Nat.exists_eq_succ_of_ne_zero fun h => hne (List.length_eq_zero_iff.mp h)
  have hempty : buffer.isEmpty = false := List.isEmpty_eq_false_iff.mpr hne
  have hsize : ¬ ((parseEvent buffer).2.eventSize = 0 ∨
      buffer.length < (parseEvent buffer).2.eventSize) := by omega
  have hrest := parseEvents_fuel n (buffer.drop (parseEvent buffer).2.eventSize).length
    (buffer.drop (parseEvent buffer).2.eventSize) (by rw [List.length_drop]; omega) (Nat.le_refl _)
  rw [parseEventList, hn, parseEvents]
  simp only [hempty, Bool.false_eq_true, if_false, hok, ne_eq, not_true, hsize, hrest]
  rfl

/-- A buffer that parses and is not empty begins with an event. -/
theorem parseEventList_ok {buffer : Bytes} (hne : buffer ≠ [])
    (hok : (parseEventList buffer).1 = .ok) :
    (parseEvent buffer).1 = .ok ∧ 0 < (parseEvent buffer).2.eventSize ∧
      (parseEvent buffer).2.eventSize ≤ buffer.length := by
  obtain ⟨n, hn⟩ := Nat.exists_eq_succ_of_ne_zero fun h => hne (List.length_eq_zero_iff.mp h)
  have hempty : buffer.isEmpty = false := List.isEmpty_eq_false_iff.mpr hne
  rw [parseEventList, hn, parseEvents] at hok
  simp only [hempty, Bool.false_eq_true, if_false, ne_eq] at hok
  split at hok
  · rename_i hfail
    exact absurd hok hfail
  · rename_i hparsed
    split at hok
    · cases hok
    · rename_i hsize
      exact ⟨not_not.mp hparsed, by omega, by omega⟩

/-- A buffer that parses is split in the same way when another one follows it. -/
theorem parseEventList_append (b : Bytes) (n : Nat) :
    ∀ a : Bytes, a.length ≤ n → (parseEventList a).1 = .ok →
      ∃ events, events.map Prod.fst = (parseEventList a).2.map Prod.fst ∧
        parseEventList (a ++ b) = ((parseEventList b).1, events ++ (parseEventList b).2) := by
  -- The GTID of an event may be read from bytes behind it, so only the bytes of the events stay.
  induction n with
  | zero =>
    intro a hlen _
    rw [List.length_eq_zero_iff.mp (Nat.le_zero.mp hlen)]
    exact ⟨[], rfl, rfl⟩
  | succ n ih =>
    intro a hlen hok
    rcases eq_or_ne a [] with rfl | hne
    · exact ⟨[], rfl, rfl⟩
    · obtain ⟨hfirst, hpos, hle⟩ := parseEventList_ok hne hok
      obtain ⟨hcode, hsize⟩ := parseEvent_append b (length_of_parseEvent_ok hfirst)
      have hsplit := parseEventList_cons hne hfirst hpos hle
      have hsplit' := @parseEventList_cons (a ++ b) (by simp [hne]) (hcode.trans hfirst)
        (hsize ▸ hpos) (by rw [hsize, List.length_append]; omega)
      rw [hsplit] at hok
      obtain ⟨events, hevents, hrest⟩ := ih (a.drop (parseEvent a).2.eventSize)
        (by rw [List.length_drop]; omega) hok
      rw [hsize, List.drop_append_of_le_length hle, List.take_append_of_le_length hle, hrest] at hsplit'
      refine ⟨(a.take (parseEvent a).2.eventSize, (parseEvent (a ++ b)).2.gtid) :: events, ?_, ?_⟩
      · rw [hsplit]
        simp only [List.map_cons, hevents]
      · rw [hsplit']
        rfl

/-- The events of a buffer make up the buffer. -/
theorem flatten_parseEventList (n : Nat) :
    ∀ a : Bytes, a.length ≤ n → (parseEventList a).1 = .ok →
      ((parseEventList a).2.map Prod.fst).flatten = a := by
  induction n with
  | zero =>
    intro a hlen _
    rw [List.length_eq_zero_iff.mp (Nat.le_zero.mp hlen)]
    rfl
  | succ n ih =>
    intro a hlen hok
    rcases eq_or_ne a [] with rfl | hne
    · rfl
    · obtain ⟨hfirst, hpos, hle⟩ := parseEventList_ok hne hok
      have hsplit := parseEventList_cons hne hfirst hpos hle
      rw [hsplit] at hok ⊢
      have hrest := ih (a.drop (parseEvent a).2.eventSize) (by rw [List.length_drop]; omega) hok
      rw [List.map_cons, List.flatten_cons, hrest, List.take_append_drop]

/-! ## Several buffers -/

/-- `max_gtid` of `GtidHandler::ParseEventList`: the last GTID that is not empty. -/
def maxGtid (events : List (Bytes × Bytes)) : Bytes :=
  events.foldl (fun last e => if e.2 ≠ [] then e.2 else last) []

theorem maxGtid_concat (events : List (Bytes × Bytes)) (e : Bytes × Bytes) :
    maxGtid (events ++ [e]) = if e.2 ≠ [] then e.2 else maxGtid events := by
  rw [maxGtid, List.foldl_append]
  rfl

theorem maxGtid_append (events events' : List (Bytes × Bytes)) :
    maxGtid events' ≠ [] → maxGtid (events ++ events') = maxGtid events' := by
  induction events' using List.reverseRecOn with
  | nil =>
    intro hne
    exact absurd rfl hne
  | append_singleton events' e ih =>
    intro hne
    rw [← List.append_assoc, maxGtid_concat, maxGtid_concat]
    rw [maxGtid_concat] at hne
    split
    · rfl
    · rename_i hempty
      rw [if_neg hempty] at hne
      exact ih hne

/-- A list of buffers that parse is split into the events of all of them, and its last GTID is that
of the last buffer. -/
theorem parseEventList_flatten (buffers : List Bytes) :
    (∀ b ∈ buffers, (parseEventList b).1 = .ok) →
      (parseEventList buffers.flatten).1 = .ok ∧
        ∀ b, buffers.getLast? = some b → maxGtid (parseEventList b).2 ≠ [] →
          maxGtid (parseEventList buffers.flatten).2 = maxGtid (parseEventList b).2 := by
  induction buffers with
  | nil =>
    intro _
    refine ⟨rfl, ?_⟩
    intro b hb
    cases hb
  | cons a buffers ih =>
    intro hall
    obtain ⟨hok, hmax⟩ := ih fun b hb => hall b (List.mem_cons_of_mem _ hb)
    obtain ⟨events, -, happ⟩ := parseEventList_append buffers.flatten a.length a (Nat.le_refl _)
      (hall a List.mem_cons_self)
    rw [List.flatten_cons, happ]
    refine ⟨hok, ?_⟩
    intro b hb hne
    cases buffers with
    | nil =>
      obtain rfl : a = b := Option.some.inj hb
      rw [← happ, List.flatten_nil, List.append_nil]
    | cons a' buffers =>
      have hlast := hmax b hb hne
      rw [maxGtid_append _ _ (hlast ▸ hne), hlast]

/-! ## The text of a GTID -/

/-- The GTIDs that are read from events: those of Percona, and those of MariaDB, which are three
numbers with dashes between them. -/
def GtidText (gtid : Bytes) : Prop :=
  Canonical gtid ∨
    ∃ domainId serverId seqNo, gtid = decimal domainId ++ 45 :: decimal serverId ++ 45 :: decimal seqNo

theorem gtidText_eventGtid (buffer : Bytes) (eventType serverId : Nat) :
    eventGtid buffer eventType serverId = [] ∨ GtidText (eventGtid buffer eventType serverId) := by
  unfold eventGtid
  split
  · split
    · -- An event of MariaDB.
      exact .inr (.inr ⟨_, _, _, rfl⟩)
    · exact .inl rfl
  · split
    · split
      · -- An event of Percona: eight bytes give a number that `ParseGTID` reads back.
        refine .inr (.inl ⟨_, _, length_readAt _ _ _, ?_, rfl⟩)
        have hlt := leValue_lt (readAt buffer 36 8)
        rw [length_readAt] at hlt
        exact hlt
      · exact .inl rfl
    · exact .inl rfl

theorem gtidText_parseEvent (buffer : Bytes) :
    (parseEvent buffer).2.gtid = [] ∨ GtidText (parseEvent buffer).2.gtid := by
  unfold parseEvent
  split
  · exact .inl rfl
  · simp only
    split
    · exact .inl rfl
    · exact gtidText_eventGtid _ _ _

theorem gtidText_of_mem (fuel : Nat) :
    ∀ (buffer : Bytes), ∀ e ∈ (parseEvents fuel buffer).2, e.2 = [] ∨ GtidText e.2 := by
  induction fuel with
  | zero =>
    intro buffer e he
    cases he
  | succ fuel ih =>
    intro buffer e he
    simp only [parseEvents] at he
    split at he
    · cases he
    · split at he
      · cases he
      · split at he
        · cases he
        · rcases List.mem_cons.mp he with rfl | he
          · exact gtidText_parseEvent buffer
          · exact ih _ e he

/-- The last GTID of a buffer has one of the two forms. -/
theorem gtidText_maxGtid (events : List (Bytes × Bytes)) :
    (∀ e ∈ events, e.2 = [] ∨ GtidText e.2) → maxGtid events = [] ∨ GtidText (maxGtid events) := by
  induction events using List.reverseRecOn with
  | nil => exact fun _ => .inl rfl
  | append_singleton events e ih =>
    intro hall
    rw [maxGtid_concat]
    split
    · rename_i hne
      exact .inr ((hall e (by simp)).resolve_left hne)
    · exact ih fun e' he' => hall e' (List.mem_append_left _ he')

/-! ## The comparison of GTIDs of both forms -/

theorem count_dash_decimal (n : Nat) : (decimal n).count 45 = 0 :=
  List.count_eq_zero.mpr (not_mem_decimal rfl n)

theorem colon_not_mem_decimal (n : Nat) : colon ∉ decimal n :=
  not_mem_decimal rfl n

theorem count_dash_hexPair (b : UInt8) : (hexPair b).count 45 = 0 := by
  have hhex : ∀ n < 16, byteToHex n ≠ 45 := by decide
  have hb : b.toNat < 256 := b.toNat_lt
  apply List.count_eq_zero.mpr
  simp only [hexPair, List.mem_cons, List.not_mem_nil, or_false, not_or]
  exact ⟨(hhex _ (by omega)).symm, (hhex _ (by omega)).symm⟩

/-- Every section of a UUID begins with a dash, and there is no other one. -/
theorem count_dash_genSections (ns : List Nat) :
    ∀ bs : Bytes, (genSections ns bs).count 45 = ns.length := by
  induction ns with
  | nil =>
    intro bs
    rfl
  | cons n ns ih =>
    intro bs
    have hsection : ((bs.take n).flatMap hexPair).count 45 = 0 := by
      apply List.count_eq_zero.mpr
      intro hmem
      obtain ⟨b, -, hb⟩ := List.mem_flatMap.mp hmem
      exact List.count_eq_zero.mp (count_dash_hexPair b) hb
    rw [genSections, List.cons_append, List.count_cons_self, List.count_append, hsection, ih,
      Nat.zero_add, List.length_cons]

theorem count_dash_genUUID (bs : Bytes) : (genUUID bs).count 45 = 4 := by
  have hcount := count_dash_genSections bytesPerSection bs
  have hhead : genSections bytesPerSection bs = 45 :: genUUID bs := rfl
  rw [hhead, List.count_cons_self] at hcount
  exact Nat.succ.inj hcount

theorem parseGTID_mariadb (domainId serverId seqNo : Nat) :
    parseGTID (decimal domainId ++ 45 :: decimal serverId ++ 45 :: decimal seqNo) =
      (decimal domainId ++ 45 :: decimal serverId ++ 45 :: decimal seqNo, 0) := by
  have hcolon : (decimal domainId ++ 45 :: decimal serverId ++ 45 :: decimal seqNo).contains colon =
      false := by
    have hdash : colon ≠ 45 := by decide
    simp [colon_not_mem_decimal, hdash]
  rw [parseGTID, hcolon]
  rfl

/-- What a GTID is compared by has four dashes or two. -/
theorem GtidText.count_dash {gtid : Bytes} (h : GtidText gtid) :
    (Canonical gtid ∧ (parseGTID gtid).1.count 45 = 4) ∨
      (parseGTID gtid = (gtid, 0) ∧ (parseGTID gtid).1.count 45 = 2) := by
  rcases h with hcanon | ⟨domainId, serverId, seqNo, rfl⟩
  · left
    refine ⟨hcanon, ?_⟩
    obtain ⟨sid, n, -, hn, rfl⟩ := hcanon
    rw [parseGTID_genUUID hn, count_dash_genUUID]
  · right
    rw [parseGTID_mariadb]
    refine ⟨rfl, ?_⟩
    simp [count_dash_decimal]

/-- The comparison identifies no two GTIDs that are read from events. -/
theorem GtidText.eq_of_gtidRank_eq {g g' : Bytes} (h : GtidText g) (h' : GtidText g')
    (hrank : gtidRank g = gtidRank g') : g = g' := by
  -- GTIDs of different forms differ in the number of dashes; within a form the text is exact.
  have hparse : parseGTID g = parseGTID g' := by
    simp only [gtidRank, EmbeddingLike.apply_eq_iff_eq, Prod.mk.injEq, byteRank_inj] at hrank
    exact Prod.ext hrank.1 hrank.2
  rcases h.count_dash with ⟨hcanon, hcount⟩ | ⟨htext, hcount⟩
  · rcases h'.count_dash with ⟨hcanon', -⟩ | ⟨-, hcount'⟩
    · exact hcanon.eq_of_gtidRank_eq hcanon' hrank
    · rw [hparse, hcount'] at hcount
      cases hcount
  · rcases h'.count_dash with ⟨-, hcount'⟩ | ⟨htext', -⟩
    · rw [hparse, hcount'] at hcount
      cases hcount
    · rw [htext, htext'] at hparse
      exact (Prod.mk.inj hparse).1

end PhxSql.Gtid
