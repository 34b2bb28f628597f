import PhxSql.Gtid.EventSplit
import PhxSql.Lib.Reads

/-!
# The bytes the parsers read

The parsers of events and GTID sets work on pointers. Here the reads of each parser are listed, in
the order in which it makes them, up to the first one that leaves the buffer; what it decides after
that depends on bytes that are not there.

For each parser the theorem `parsing_stays_inside_iff` says for which buffers all reads stay inside
and a buffer that is too short is an error. The parsers fail where a length is compared with a
smaller number than is read (`EVENT_GTID`), where a length is subtracted before it is known to be
large enough (`EVENT_PERCONA_GTID`, `EVENT_PREVIOUS_GTIDS`), where a count of intervals is trusted,
and where nothing is compared at all (`COM_BINLOG_DUMP_GTID`).
-/

set_option autoImplicit false

namespace PhxSql.Gtid

open PhxSql.Proto PhxSql.Lib

/-! ## The reads -/

/-- The interval loop of `ParsePreviousGTIDEvent`. -/
def intervalReads : Nat → Nat → List (Nat × Nat)
  | 0, _ => []
  | n + 1, pos => (pos, 8) :: (pos + 8, 8) :: intervalReads n (pos + 16)

/-- How many intervals the server id at a position announces. -/
def intervalCount (buffer : Bytes) (pos : Nat) : Nat :=
  getBuffer buffer (pos + 16) 8

/-- The UUID loop of `ParsePreviousGTIDEvent`. -/
def sidReads (buffer : Bytes) (len : Nat) : Nat → Nat → List (Nat × Nat)
  | 0, _ => []
  | n + 1, pos =>
    -- `len - pos` is unsigned: behind the end it is a large number, and the loop goes on.
    if pos ≤ len ∧ len - pos < 24 then []
    else
      (pos, 16) :: (pos + 16, 8) :: (intervalReads (intervalCount buffer pos) (pos + 24) ++
        sidReads buffer len n (pos + 24 + 16 * intervalCount buffer pos))

/-- `GtidHandler::ParsePreviousGTIDEvent`. -/
def previousGTIDEventReads (buffer : Bytes) (len : Nat) : List (Nat × Nat) :=
  (0, 8) :: sidReads buffer len (getBuffer buffer 0 8) 8

/-- `GtidHandler::ParsePreviousGTIDCommand`. -/
def previousGTIDCommandReads (buffer : Bytes) : List (Nat × Nat) :=
  let nameInfoSize := getBuffer buffer 6 4
  let pos := 10 + nameInfoSize + 8
  let dataSize := getBuffer buffer pos 4
  -- Flags, server id, the size of the name, the binlog position behind the name, the size of the set;
  -- the length of the buffer is looked at only after all of them.
  (0, 2) :: (2, 4) :: (6, 4) :: (10 + nameInfoSize, 8) :: (pos, 4) ::
    if pos + 4 + dataSize ≠ buffer.length then []
    else shiftReads (pos + 4) (previousGTIDEventReads (buffer.drop (pos + 4)) dataSize)

/-- The flag of a MariaDB GTID event that a commit id follows. -/
def hasCommitId (buffer : Bytes) : Bool :=
  decide (getBuffer buffer 31 1 / 2 % 2 = 1)

/-- What `GtidHandler::ParseEvent` reads behind the header, by the type of the event. -/
def bodyReads (buffer : Bytes) (eventType : Nat) : List (Nat × Nat) :=
  -- `EVENT_GTID` of MariaDB: the comparison with 30 does not cover the flags at 31.
  if eventType = 162 then
    if 30 < buffer.length then
      (19, 8) :: (27, 4) :: (31, 1) :: if hasCommitId buffer then [(32, 8)] else []
    else []
  -- `EVENT_PERCONA_GTID`: the size behind the header is an unsigned difference.
  else if eventType = 33 then
    if buffer.length < 19 ∨ 24 < buffer.length - 19 then [(20, 16), (36, 8)] else []
  -- `EVENT_PREVIOUS_GTIDS`, with the same difference as the length of the set.
  else if eventType = 35 then
    shiftReads 19
      (previousGTIDEventReads (buffer.drop 19) ((buffer.length + 2 ^ 64 - 19) % 2 ^ 64))
  else []

/-- The type byte of the event at the start of a buffer. -/
def typeByte (buffer : Bytes) : Nat :=
  getBuffer buffer 4 1

/-- `GtidHandler::ParseEvent`. -/
def eventReads (buffer : Bytes) : List (Nat × Nat) :=
  if buffer.length < 13 then []
  else
    (0, 4) :: (4, 1) :: (5, 4) :: (9, 4) ::
      if 200 ≤ typeByte buffer then [] else bodyReads buffer (typeByte buffer)

/-- `ParseEventList` goes on behind the event at the start of the buffer. -/
def EventAccepted (buffer : Bytes) : Prop :=
  (parseEvent buffer).1 = .ok ∧ (parseEvent buffer).2.eventSize ≠ 0 ∧
    (parseEvent buffer).2.eventSize ≤ buffer.length

instance (buffer : Bytes) : Decidable (EventAccepted buffer) :=
  inferInstanceAs (Decidable (_ ∧ _))

/-- The loop of `GtidHandler::ParseEventList`. An event that is accepted is copied. -/
def eventListReads : Nat → Bytes → List (Nat × Nat)
  | 0, _ => []
  | fuel + 1, buffer =>
    if buffer.isEmpty then []
    else
      eventReads buffer ++
        if EventAccepted buffer then
          (0, (parseEvent buffer).2.eventSize) :: shiftReads (parseEvent buffer).2.eventSize
            (eventListReads fuel (buffer.drop (parseEvent buffer).2.eventSize))
        else []

/-- What is left of the buffer at each call of `ParseEvent` in that loop. -/
def reached : Nat → Bytes → List Bytes
  | 0, _ => []
  | fuel + 1, buffer =>
    if buffer.isEmpty then []
    else
      buffer ::
        if EventAccepted buffer then
          reached fuel (buffer.drop (parseEvent buffer).2.eventSize)
        else []

/-! ## The reads determine the results -/

theorem parseIntervals_snd (buffer uuid : Bytes) (n : Nat) : ∀ pos,
    (parseIntervals buffer uuid n pos).2 = pos + 16 * n := by
  induction n with
  | zero =>
    intro pos
    rfl
  | succ n ih =>
    intro pos
    simp only [parseIntervals, ih]
    omega

section Determine

variable {buffer buffer' : Bytes}

theorem getBuffer_congr {pos len : Nat} (h : readAt buffer pos len = readAt buffer' pos len) :
    getBuffer buffer pos len = getBuffer buffer' pos len :=
  congrArg leValue h

theorem parseIntervals_congr (uuid : Bytes) (n : Nat) : ∀ {pos},
    AgreeOn (intervalReads n pos) buffer buffer' →
      parseIntervals buffer uuid n pos = parseIntervals buffer' uuid n pos := by
  induction n with
  | zero =>
    intro pos _
    rfl
  | succ n ih =>
    intro pos h
    obtain ⟨hfirst, h⟩ := agreeOn_cons.mp h
    obtain ⟨hlast, hrest⟩ := agreeOn_cons.mp h
    simp only [parseIntervals, getBuffer_congr hfirst, getBuffer_congr hlast, ih hrest]

theorem parseSids_congr (len n : Nat) : ∀ {pos},
    AgreeOn (sidReads buffer len n pos) buffer buffer' →
      parseSids buffer len n pos = parseSids buffer' len n pos := by
  induction n with
  | zero =>
    intro pos _
    rfl
  | succ n ih =>
    intro pos h
    rw [sidReads] at h
    rw [parseSids, parseSids]
    by_cases hleft : pos ≤ len ∧ len - pos < 24
    · rw [if_pos hleft, if_pos hleft]
    · rw [if_neg hleft] at h ⊢
      rw [if_neg hleft]
      obtain ⟨huuid, h⟩ := agreeOn_cons.mp h
      obtain ⟨hcount, h⟩ := agreeOn_cons.mp h
      obtain ⟨hivs, hrest⟩ := agreeOn_append.mp h
      have hsame := parseIntervals_congr (genUUID (readAt buffer pos 16)) _ hivs
      have hnext : (parseIntervals buffer (genUUID (readAt buffer pos 16))
          (intervalCount buffer pos) (pos + 24)).2 = pos + 24 + 16 * intervalCount buffer pos :=
        parseIntervals_snd _ _ _ _
      simp only [← huuid, ← getBuffer_congr hcount]
      rw [intervalCount] at hsame hnext hrest
      rw [← hsame, hnext, ih hrest]

/-- The result of `ParsePreviousGTIDEvent` comes from the bytes it reads. -/
theorem parsePreviousGTIDEvent_congr {len : Nat}
    (h : AgreeOn (previousGTIDEventReads buffer len) buffer buffer') :
    parsePreviousGTIDEvent buffer len = parsePreviousGTIDEvent buffer' len := by
  obtain ⟨hcount, hrest⟩ := agreeOn_cons.mp h
  rw [parsePreviousGTIDEvent, parsePreviousGTIDEvent, ← getBuffer_congr hcount,
    parseSids_congr len _ hrest]

/-- The result of `ParsePreviousGTIDCommand` comes from the length and the bytes it reads. -/
theorem parsePreviousGTIDCommand_congr (hlen : buffer.length = buffer'.length)
    (h : AgreeOn (previousGTIDCommandReads buffer) buffer buffer') :
    parsePreviousGTIDCommand buffer = parsePreviousGTIDCommand buffer' := by
  simp only [previousGTIDCommandReads] at h
  obtain ⟨-, h⟩ := agreeOn_cons.mp h
  obtain ⟨-, h⟩ := agreeOn_cons.mp h
  obtain ⟨hname, h⟩ := agreeOn_cons.mp h
  obtain ⟨-, h⟩ := agreeOn_cons.mp h
  obtain ⟨hsize, hset⟩ := agreeOn_cons.mp h
  simp only [parsePreviousGTIDCommand, ← getBuffer_congr hname, ← getBuffer_congr hsize, ← hlen]
  split
  · rfl
  · rename_i hmatches
    rw [if_neg hmatches] at hset
    exact parsePreviousGTIDEvent_congr hset.drop

/-- The GTID of an event comes from the bytes behind its header. -/
theorem eventGtid_congr (hlen : buffer.length = buffer'.length) {eventType : Nat}
    (h : AgreeOn (bodyReads buffer eventType) buffer buffer') (serverId : Nat) :
    eventGtid buffer eventType serverId = eventGtid buffer' eventType serverId := by
  unfold bodyReads at h
  unfold eventGtid
  rw [← hlen]
  split
  · rename_i hmaria
    rw [if_pos hmaria] at h
    split
    · rename_i hlong
      rw [if_pos hlong] at h
      obtain ⟨hseq, h⟩ := agreeOn_cons.mp h
      obtain ⟨hdomain, -⟩ := agreeOn_cons.mp h
      rw [getBuffer_congr hseq, getBuffer_congr hdomain]
    · rfl
  · rename_i hmaria
    rw [if_neg hmaria] at h
    split
    · rename_i hpercona
      rw [if_pos hpercona] at h
      split
      · rename_i hlong
        rw [if_pos hlong] at h
        obtain ⟨huuid, h⟩ := agreeOn_cons.mp h
        obtain ⟨hseq, -⟩ := agreeOn_cons.mp h
        rw [huuid, getBuffer_congr hseq]
      · rfl
    · rfl

/-- The result of `ParseEvent` comes from the length and the bytes it reads. -/
theorem parseEvent_congr (hlen : buffer.length = buffer'.length)
    (h : AgreeOn (eventReads buffer) buffer buffer') : parseEvent buffer = parseEvent buffer' := by
  rw [parseEvent, parseEvent, ← hlen]
  rw [eventReads] at h
  by_cases hshort : buffer.length < 13
  · rw [if_pos hshort, if_pos hshort]
  · rw [if_neg hshort] at h ⊢
    rw [if_neg hshort]
    obtain ⟨htime, h⟩ := agreeOn_cons.mp h
    obtain ⟨htype, h⟩ := agreeOn_cons.mp h
    obtain ⟨hserver, h⟩ := agreeOn_cons.mp h
    obtain ⟨hsize, hbody⟩ := agreeOn_cons.mp h
    simp only [← getBuffer_congr htime, ← getBuffer_congr htype, ← getBuffer_congr hserver,
      ← getBuffer_congr hsize]
    by_cases hreject : 200 ≤ getBuffer buffer 4 1
    · rw [if_pos hreject, if_pos hreject]
    · rw [if_neg hreject, if_neg hreject]
      rw [if_neg (show ¬ 200 ≤ typeByte buffer from hreject), typeByte] at hbody
      generalize getBuffer buffer 4 1 = eventType at hbody
      have hset : eventType = 35 →
          parsePreviousGTIDEvent (buffer.drop 19) ((buffer.length + 2 ^ 64 - 19) % 2 ^ 64) =
            parsePreviousGTIDEvent (buffer'.drop 19)
              ((buffer.length + 2 ^ 64 - 19) % 2 ^ 64) := by
        rintro rfl
        exact parsePreviousGTIDEvent_congr (AgreeOn.drop hbody)
      by_cases hprevious : eventType = 35
      · rw [eventGtid_congr hlen hbody, hset hprevious]
      · rw [eventGtid_congr hlen hbody, if_neg hprevious, if_neg hprevious]

end Determine

/-! ## GTID sets -/

/-- Where 24 bytes are left for a server id, the intervals it announces are there too. -/
def SidsFit (buffer : Bytes) (len : Nat) : Nat → Nat → Prop
  | 0, _ => True
  | n + 1, pos =>
    pos + 24 ≤ len →
      pos + 24 + 16 * intervalCount buffer pos ≤ len ∧
        SidsFit buffer len n (pos + 24 + 16 * intervalCount buffer pos)

/-- All server ids and intervals that are announced are there. -/
def SidsWhole (buffer : Bytes) (len : Nat) : Nat → Nat → Prop
  | 0, _ => True
  | n + 1, pos =>
    pos + 24 + 16 * intervalCount buffer pos ≤ len ∧
      SidsWhole buffer len n (pos + 24 + 16 * intervalCount buffer pos)

def SetFits (buffer : Bytes) : Prop :=
  8 ≤ buffer.length ∧ SidsFit buffer buffer.length (getBuffer buffer 0 8) 8

def SetWhole (buffer : Bytes) : Prop :=
  8 ≤ buffer.length ∧ SidsWhole buffer buffer.length (getBuffer buffer 0 8) 8

theorem inside_intervalReads (len n : Nat) : ∀ pos,
    Inside len (intervalReads n pos) ↔ (n ≠ 0 → pos + 16 * n ≤ len) := by
  induction n with
  | zero =>
    intro pos
    exact iff_of_true (inside_nil len) fun h => absurd rfl h
  | succ n ih =>
    intro pos
    rw [intervalReads, inside_cons (by omega), inside_cons (by omega), ih]
    constructor
    · rintro ⟨-, hend, hrest⟩ -
      rcases Nat.eq_zero_or_pos n with hn | hn
      · omega
      · have := hrest (by omega)
        omega
    · intro h
      have := h (Nat.succ_ne_zero n)
      exact ⟨by omega, by omega, fun _ => by omega⟩

/-- The reads of the UUID loop stay inside exactly if the counts of intervals fit. -/
theorem inside_sidReads (buffer : Bytes) (len n : Nat) : ∀ pos, pos ≤ len →
    (Inside len (sidReads buffer len n pos) ↔ SidsFit buffer len n pos) := by
  induction n with
  | zero =>
    intro pos _
    exact iff_of_true (inside_nil len) trivial
  | succ n ih =>
    intro pos hpos
    rw [sidReads, SidsFit]
    by_cases hleft : pos + 24 ≤ len
    · -- There are 24 bytes for the server id; what matters is where its intervals end.
      rw [if_neg (by omega), inside_cons (by omega), inside_cons (by omega), inside_append,
        inside_intervalReads]
      generalize intervalCount buffer pos = count
      constructor
      · rintro ⟨-, -, hivs, hrest⟩ -
        have hend : pos + 24 + 16 * count ≤ len := by
          rcases Nat.eq_zero_or_pos count with hzero | hcount
          · omega
          · exact hivs (by omega)
        exact ⟨hend, (ih _ hend).mp hrest⟩
      · intro h
        obtain ⟨hend, hrest⟩ := h hleft
        exact ⟨by omega, hleft, fun _ => hend, (ih _ hend).mpr hrest⟩
    · rw [if_pos (by omega)]
      exact iff_of_true (inside_nil len) fun h => absurd h hleft

theorem inside_previousGTIDEventReads (buffer : Bytes) (len : Nat) :
    Inside len (previousGTIDEventReads buffer len) ↔
      8 ≤ len ∧ SidsFit buffer len (getBuffer buffer 0 8) 8 := by
  rw [previousGTIDEventReads, inside_cons (by omega), Nat.zero_add]
  constructor
  · rintro ⟨hlen, hrest⟩
    exact ⟨hlen, (inside_sidReads buffer len _ 8 hlen).mp hrest⟩
  · rintro ⟨hlen, hfit⟩
    exact ⟨hlen, (inside_sidReads buffer len _ 8 hlen).mpr hfit⟩

/-- A set that is accepted is whole: the loop ends at the end of the buffer. -/
theorem sidsWhole_of_ok (buffer : Bytes) (len n : Nat) : ∀ pos,
    (parseSids buffer len n pos).1 = .ok → pos ≤ len ∧ SidsWhole buffer len n pos := by
  induction n with
  | zero =>
    intro pos hok
    rw [parseSids] at hok
    split at hok
    · cases hok
    · rename_i hend
      exact ⟨by omega, trivial⟩
  | succ n ih =>
    intro pos hok
    rw [parseSids] at hok
    split at hok
    · cases hok
    · -- A position behind the end is caught at the end of the loop only.
      simp only [parseIntervals_snd] at hok
      obtain ⟨hle, hwhole⟩ := ih _ hok
      exact ⟨by omega, hle, hwhole⟩

theorem setWhole_of_ok {buffer : Bytes} {len : Nat}
    (hok : (parsePreviousGTIDEvent buffer len).1 = .ok) :
    8 ≤ len ∧ SidsWhole buffer len (getBuffer buffer 0 8) 8 :=
  sidsWhole_of_ok buffer len _ 8 hok

theorem SidsWhole.fit {buffer : Bytes} {len : Nat} (n : Nat) : ∀ {pos},
    SidsWhole buffer len n pos → SidsFit buffer len n pos := by
  induction n with
  | zero => exact fun _ => trivial
  | succ n ih => exact fun h _ => ⟨h.1, ih h.2⟩

/-- `ParsePreviousGTIDEvent` reads only the buffer, and a set that is cut off is an error. -/
def SetSafe (buffer : Bytes) : Prop :=
  Inside buffer.length (previousGTIDEventReads buffer buffer.length) ∧
    (¬ SetWhole buffer → (parsePreviousGTIDEvent buffer buffer.length).1 ≠ .ok)

theorem setSafe_iff (buffer : Bytes) : SetSafe buffer ↔ SetFits buffer := by
  rw [SetSafe, inside_previousGTIDEventReads, SetFits]
  apply and_iff_left
  intro hshort hok
  exact hshort (setWhole_of_ok hok)

/-! ## The command -/

/-- The fields up to the size of the set, the name included. -/
def commandHead (buffer : Bytes) : Nat :=
  22 + getBuffer buffer 6 4

/-- The size field says how many bytes follow it. -/
def SizeMatches (buffer : Bytes) : Prop :=
  commandHead buffer + getBuffer buffer (18 + getBuffer buffer 6 4) 4 = buffer.length

instance (buffer : Bytes) : Decidable (SizeMatches buffer) :=
  inferInstanceAs (Decidable (_ = _))

/-- The fields are there, and a set whose size is right fits. -/
def CommandFits (buffer : Bytes) : Prop :=
  commandHead buffer ≤ buffer.length ∧
    (SizeMatches buffer → SetFits (buffer.drop (commandHead buffer)))

def CommandWhole (buffer : Bytes) : Prop :=
  commandHead buffer ≤ buffer.length ∧ SizeMatches buffer ∧
    SetWhole (buffer.drop (commandHead buffer))

/-- `ParsePreviousGTIDCommand` reads only the buffer, and a command that is cut off is an error. -/
def CommandSafe (buffer : Bytes) : Prop :=
  Inside buffer.length (previousGTIDCommandReads buffer) ∧
    (¬ CommandWhole buffer → (parsePreviousGTIDCommand buffer).1 ≠ .ok)

/-- The set of a command whose size is right is what follows the fields. -/
theorem length_drop_commandHead {buffer : Bytes} (h : SizeMatches buffer) :
    (buffer.drop (commandHead buffer)).length =
      getBuffer buffer (18 + getBuffer buffer 6 4) 4 := by
  rw [List.length_drop, ← h]
  omega

theorem previousGTIDCommandReads_eq (buffer : Bytes) :
    previousGTIDCommandReads buffer =
      (0, 2) :: (2, 4) :: (6, 4) :: (10 + getBuffer buffer 6 4, 8) ::
        (18 + getBuffer buffer 6 4, 4) ::
        if SizeMatches buffer then
          shiftReads (commandHead buffer) (previousGTIDEventReads
            (buffer.drop (commandHead buffer)) (buffer.drop (commandHead buffer)).length)
        else [] := by
  have hpos : 10 + getBuffer buffer 6 4 + 8 = 18 + getBuffer buffer 6 4 := by omega
  have hhead : 18 + getBuffer buffer 6 4 + 4 = commandHead buffer := by
    rw [commandHead]
    omega
  simp only [previousGTIDCommandReads, hpos, hhead]
  by_cases hsize : SizeMatches buffer
  · have hsize' : ¬ commandHead buffer + getBuffer buffer (18 + getBuffer buffer 6 4) 4 ≠
        buffer.length := not_not.mpr hsize
    rw [if_pos hsize, if_neg hsize', length_drop_commandHead hsize]
  · have hsize' : commandHead buffer + getBuffer buffer (18 + getBuffer buffer 6 4) 4 ≠
        buffer.length := hsize
    rw [if_neg hsize, if_pos hsize']

theorem parsePreviousGTIDCommand_ok {buffer : Bytes}
    (hok : (parsePreviousGTIDCommand buffer).1 = .ok) : CommandWhole buffer := by
  have hpos : 10 + getBuffer buffer 6 4 + 8 = 18 + getBuffer buffer 6 4 := by omega
  have hhead : 18 + getBuffer buffer 6 4 + 4 = commandHead buffer := by
    rw [commandHead]
    omega
  simp only [parsePreviousGTIDCommand, hpos, hhead] at hok
  split at hok
  · cases hok
  · rename_i hsize
    have hsize : SizeMatches buffer := not_not.mp hsize
    rw [← length_drop_commandHead hsize] at hok
    exact ⟨by rw [← hsize]; omega, hsize, setWhole_of_ok hok⟩

theorem commandSafe_iff (buffer : Bytes) : CommandSafe buffer ↔ CommandFits buffer := by
  rw [CommandSafe, and_iff_left fun hshort hok => hshort (parsePreviousGTIDCommand_ok hok),
    previousGTIDCommandReads_eq, CommandFits]
  rw [inside_cons (by omega), inside_cons (by omega), inside_cons (by omega),
    inside_cons (by omega), inside_cons (by omega)]
  have hset : ∀ hhead : commandHead buffer ≤ buffer.length,
      Inside buffer.length (if SizeMatches buffer then
        shiftReads (commandHead buffer) (previousGTIDEventReads (buffer.drop (commandHead buffer))
          (buffer.drop (commandHead buffer)).length) else []) ↔
        (SizeMatches buffer → SetFits (buffer.drop (commandHead buffer))) := by
    intro hhead
    by_cases hsize : SizeMatches buffer
    · rw [if_pos hsize, inside_shiftReads hhead, ← List.length_drop,
        inside_previousGTIDEventReads, forall_prop_of_true hsize, SetFits]
    · rw [if_neg hsize]
      exact iff_of_true (inside_nil _) fun h => absurd h hsize
  have hcommand : commandHead buffer = 22 + getBuffer buffer 6 4 := rfl
  constructor
  · rintro ⟨-, -, -, -, hend, hrest⟩
    have hhead : commandHead buffer ≤ buffer.length := by omega
    exact ⟨hhead, (hset hhead).mp hrest⟩
  · rintro ⟨hhead, hrest⟩
    exact ⟨by omega, by omega, by omega, by omega, by omega, (hset hhead).mpr hrest⟩

/-! ## Events -/

/-- What `ParseEvent` reads behind the header is there: all of a MariaDB GTID if more than its first
30 bytes are, the rest of the header of a Percona GTID, and a GTID set that fits. -/
def ReadsFit (buffer : Bytes) : Prop :=
  13 ≤ buffer.length → typeByte buffer < 200 →
    (typeByte buffer = 162 → 30 < buffer.length →
      32 ≤ buffer.length ∧ (hasCommitId buffer = true → 40 ≤ buffer.length)) ∧
    (typeByte buffer = 33 → 19 ≤ buffer.length) ∧
    (typeByte buffer = 35 → SetFits (buffer.drop 19))

/-- The event is as long as its type requires. -/
def EventWhole (buffer : Bytes) : Prop :=
  13 ≤ buffer.length ∧
    (typeByte buffer = 162 →
      32 ≤ buffer.length ∧ (hasCommitId buffer = true → 40 ≤ buffer.length)) ∧
    (typeByte buffer = 33 → 44 ≤ buffer.length) ∧
    (typeByte buffer = 35 → SetWhole (buffer.drop 19))

/-- `ParseEvent` reads only the buffer, and an event that is cut off is an error. -/
def EventSafe (buffer : Bytes) : Prop :=
  Inside buffer.length (eventReads buffer) ∧
    (¬ EventWhole buffer → (parseEvent buffer).1 ≠ .ok)

/-- The event is rejected by its header, or it is whole. -/
def EventFits (buffer : Bytes) : Prop :=
  buffer.length < 13 ∨ 200 ≤ typeByte buffer ∨ EventWhole buffer

theorem inside_bodyReads {buffer : Bytes} (hlong : 13 ≤ buffer.length)
    (hsize : buffer.length < 2 ^ 64) :
    Inside buffer.length (bodyReads buffer (typeByte buffer)) ↔
      (typeByte buffer = 162 → 30 < buffer.length →
        32 ≤ buffer.length ∧ (hasCommitId buffer = true → 40 ≤ buffer.length)) ∧
      (typeByte buffer = 33 → 19 ≤ buffer.length) ∧
      (typeByte buffer = 35 → SetFits (buffer.drop 19)) := by
  unfold bodyReads
  split
  · rename_i hmaria
    simp only [hmaria, forall_true_left, Nat.reduceEqDiff, false_imp_iff, and_true]
    split
    · rename_i hlen
      rw [inside_cons (by omega), inside_cons (by omega), inside_cons (by omega),
        forall_prop_of_true hlen]
      by_cases hcommit : hasCommitId buffer = true
      · rw [if_pos hcommit, inside_cons (by omega), forall_prop_of_true hcommit]
        constructor
        · rintro ⟨-, -, -, hend, -⟩
          omega
        · intro hend
          exact ⟨by omega, by omega, by omega, by omega, inside_nil _⟩
      · rw [if_neg hcommit]
        constructor
        · rintro ⟨-, -, hend, -⟩
          exact ⟨by omega, fun h => absurd h hcommit⟩
        · rintro ⟨hend, -⟩
          exact ⟨by omega, by omega, by omega, inside_nil _⟩
    · rename_i hlen
      exact iff_of_true (inside_nil _) fun h => absurd h hlen
  · rename_i hmaria
    split
    · rename_i hpercona
      simp only [hpercona, forall_true_left, Nat.reduceEqDiff, false_imp_iff, and_true, true_and]
      -- Below 19 bytes the size that is left is a large number, and the GTID is read.
      split
      · rename_i hlen
        rw [inside_cons (by omega), inside_cons (by omega)]
        constructor
        · rintro ⟨-, hend, -⟩
          omega
        · intro hend
          exact ⟨by omega, by omega, inside_nil _⟩
      · rename_i hlen
        exact iff_of_true (inside_nil _) (by omega)
    · rename_i hpercona
      split
      · rename_i hprevious
        simp only [hprevious, forall_true_left, Nat.reduceEqDiff, false_imp_iff, true_and]
        by_cases hlen : 19 ≤ buffer.length
        · have hmod : (buffer.length + 2 ^ 64 - 19) % 2 ^ 64 = buffer.length - 19 := by omega
          rw [hmod, inside_shiftReads hlen, inside_previousGTIDEventReads, SetFits,
            List.length_drop]
        · -- The count of the set is read although the buffer ends in its header.
          refine iff_of_false ?_ ?_
          · intro hinside
            have hend := hinside (19, 8) (List.mem_map.mpr ⟨(0, 8), List.mem_cons_self, rfl⟩) 19
              (Nat.le_refl _) (by simp only; omega)
            omega
          · rintro ⟨hend, -⟩
            rw [List.length_drop] at hend
            omega
      · rename_i hprevious
        exact iff_of_true (inside_nil _)
          ⟨fun h => absurd h hmaria, fun h => absurd h hpercona, fun h => absurd h hprevious⟩

theorem inside_eventReads {buffer : Bytes} (hsize : buffer.length < 2 ^ 64) :
    Inside buffer.length (eventReads buffer) ↔ ReadsFit buffer := by
  rw [eventReads, ReadsFit]
  by_cases hlong : 13 ≤ buffer.length
  · rw [if_neg (Nat.not_lt.mpr hlong), inside_cons (by omega), inside_cons (by omega),
      inside_cons (by omega), inside_cons (by omega), forall_prop_of_true hlong]
    have hheader : ∀ {p : Prop}, (0 + 4 ≤ buffer.length ∧ 4 + 1 ≤ buffer.length ∧
        5 + 4 ≤ buffer.length ∧ 9 + 4 ≤ buffer.length ∧ p) ↔ p := by
      intro p
      constructor
      · rintro ⟨-, -, -, -, hp⟩
        exact hp
      · intro hp
        exact ⟨by omega, by omega, by omega, by omega, hp⟩
    rw [hheader]
    by_cases htype : typeByte buffer < 200
    · rw [if_neg (Nat.not_le.mpr htype), forall_prop_of_true htype]
      exact inside_bodyReads hlong hsize
    · rw [if_pos (Nat.le_of_not_lt htype)]
      exact iff_of_true (inside_nil _) fun h => absurd h htype
  · rw [if_pos (Nat.lt_of_not_le hlong)]
    exact iff_of_true (inside_nil _) fun h => absurd h hlong

theorem parseEvent_ok_iff (buffer : Bytes) :
    (parseEvent buffer).1 = .ok ↔ 13 ≤ buffer.length ∧ typeByte buffer < 200 := by
  unfold parseEvent typeByte
  split
  · exact iff_of_false (by simp) (by omega)
  · simp only
    split
    · exact iff_of_false (by simp) (by omega)
    · exact iff_of_true rfl (by omega)

theorem EventWhole.readsFit {buffer : Bytes} (h : EventWhole buffer) : ReadsFit buffer := by
  obtain ⟨-, hmaria, hpercona, hprevious⟩ := h
  intro _ _
  refine ⟨fun htype _ => hmaria htype, fun htype => ?_, fun htype => ?_⟩
  · have := hpercona htype
    omega
  · obtain ⟨hlen, hwhole⟩ := hprevious htype
    exact ⟨hlen, hwhole.fit⟩

theorem eventSafe_iff {buffer : Bytes} (hsize : buffer.length < 2 ^ 64) :
    EventSafe buffer ↔ EventFits buffer := by
  rw [EventSafe, inside_eventReads hsize, ne_eq, parseEvent_ok_iff, EventFits]
  -- The code depends on the header only, so an event that is cut off behind it is accepted.
  constructor
  · rintro ⟨-, hshort⟩
    by_cases hlong : 13 ≤ buffer.length
    · by_cases htype : typeByte buffer < 200
      · exact .inr (.inr (not_not.mp fun hcut => hshort hcut ⟨hlong, htype⟩))
      · exact .inr (.inl (Nat.le_of_not_lt htype))
    · exact .inl (Nat.lt_of_not_le hlong)
  · rintro (hlong | htype | hwhole)
    · exact ⟨fun h => absurd h (by omega), fun _ hok => absurd hok.1 (by omega)⟩
    · exact ⟨fun _ h => absurd h (by omega), fun _ hok => absurd hok.2 (by omega)⟩
    · exact ⟨hwhole.readsFit, fun hcut => absurd hwhole hcut⟩

/-! ## Lists of events -/

/-- The buffer ends in an event: in its header, or before the size it says. -/
def CutOff (buffer : Bytes) : Prop :=
  ∃ rest ∈ reached buffer.length buffer,
    rest.length < 13 ∨ rest.length < (parseEvent rest).2.eventSize

/-- `ParseEventList` reads only the buffer, and a buffer that is cut off is an error. -/
def EventListSafe (buffer : Bytes) : Prop :=
  Inside buffer.length (eventListReads buffer.length buffer) ∧
    (CutOff buffer → (parseEventList buffer).1 ≠ .ok)

/-- The reads of the loop are those of `ParseEvent` at the events that are reached. -/
theorem inside_eventListReads (fuel : Nat) : ∀ buffer : Bytes, buffer.length < 2 ^ 64 →
    (Inside buffer.length (eventListReads fuel buffer) ↔
      ∀ rest ∈ reached fuel buffer, ReadsFit rest) := by
  induction fuel with
  | zero =>
    intro buffer _
    exact iff_of_true (inside_nil _) fun rest hrest => absurd hrest List.not_mem_nil
  | succ fuel ih =>
    intro buffer hsize
    rw [eventListReads, reached]
    by_cases hempty : buffer.isEmpty = true
    · rw [if_pos hempty, if_pos hempty]
      exact iff_of_true (inside_nil _) fun rest hrest => absurd hrest List.not_mem_nil
    · rw [if_neg hempty, if_neg hempty, inside_append, inside_eventReads hsize,
        List.forall_mem_cons]
      apply and_congr_right
      intro _
      by_cases haccepted : EventAccepted buffer
      · rw [if_pos haccepted, if_pos haccepted]
        obtain ⟨-, hne, hle⟩ := haccepted
        have hrest := ih (buffer.drop (parseEvent buffer).2.eventSize)
          (by rw [List.length_drop]; omega)
        rw [List.length_drop] at hrest
        rw [inside_cons (Nat.pos_of_ne_zero hne), inside_shiftReads hle, hrest, Nat.zero_add,
          and_iff_right hle]
      · rw [if_neg haccepted, if_neg haccepted]
        exact iff_of_true (inside_nil _) fun rest hrest => absurd hrest List.not_mem_nil

/-- If the loop returns `OK`, all events it has reached are whole. -/
theorem accepted_of_parseEvents_ok (fuel : Nat) : ∀ buffer : Bytes,
    (parseEvents fuel buffer).1 = .ok → ∀ rest ∈ reached fuel buffer, EventAccepted rest := by
  induction fuel with
  | zero =>
    intro buffer _ rest hrest
    cases hrest
  | succ fuel ih =>
    intro buffer hok rest hrest
    rw [reached] at hrest
    rw [parseEvents] at hok
    by_cases hempty : buffer.isEmpty = true
    · rw [if_pos hempty] at hrest
      cases hrest
    · simp only [if_neg hempty] at hok hrest
      split at hok
      · rename_i hfail
        exact absurd hok hfail
      · rename_i hcode
        split at hok
        · cases hok
        · rename_i hsize
          have haccepted : EventAccepted buffer := ⟨not_not.mp hcode, by omega, by omega⟩
          rw [if_pos haccepted] at hrest
          rcases List.mem_cons.mp hrest with rfl | hrest
          · exact haccepted
          · exact ih _ hok rest hrest

theorem eventListSafe_iff {buffer : Bytes} (hsize : buffer.length < 2 ^ 64) :
    EventListSafe buffer ↔ ∀ rest ∈ reached buffer.length buffer, ReadsFit rest := by
  rw [EventListSafe, inside_eventListReads _ buffer hsize]
  apply and_iff_left
  rintro ⟨rest, hrest, hcut⟩ hok
  obtain ⟨hcode, -, hle⟩ := accepted_of_parseEvents_ok _ buffer hok rest hrest
  have hlong := length_of_parseEvent_ok hcode
  omega

/-! ## All parsers -/

/-- For each of the four parsers: when all its reads stay inside the buffer and a buffer that is too
short for what it announces is an error. -/
theorem parsing_stays_inside_iff {buffer : Bytes} (hsize : buffer.length < 2 ^ 64) :
    (EventSafe buffer ↔ EventFits buffer) ∧
    (EventListSafe buffer ↔ ∀ rest ∈ reached buffer.length buffer, ReadsFit rest) ∧
    (SetSafe buffer ↔ SetFits buffer) ∧
    (CommandSafe buffer ↔ CommandFits buffer) :=
  ⟨eventSafe_iff hsize, eventListSafe_iff hsize, setSafe_iff buffer, commandSafe_iff buffer⟩

/-- A Percona GTID event of 44 bytes. -/
def perconaEvent : Bytes :=
  [0, 0, 0, 0, 33, 1, 0, 0, 0, 44, 0, 0, 0] ++ List.replicate 31 7

theorem parsing_perconaEvent_stays_inside : EventSafe perconaEvent :=
  (parsing_stays_inside_iff (by decide)).1.mpr
    (.inr (.inr ⟨by decide, fun h => absurd h (by decide +kernel), fun _ => by decide,
      fun h => absurd h (by decide +kernel)⟩))

/-- The first bytes of an event of a given type. -/
def eventHead (eventType : UInt8) (size : Nat) : Bytes :=
  [0, 0, 0, 0, eventType, 1, 0, 0, 0, UInt8.ofNat size, 0, 0, 0] ++ List.replicate (size - 13) 0

/-- Each parser reads past the end of a short buffer: `ParseEvent` for a Percona GTID of 13 bytes, a
MariaDB GTID of 31 bytes and a set that ends with the header; `ParseEventList` for the first of
these; `ParsePreviousGTIDEvent` for a set that announces an interval it does not have; and
`ParsePreviousGTIDCommand` for an empty command. A Percona GTID event of 20 bytes is accepted. -/
theorem parsing_leaves_buffer :
    ¬ Inside 13 (eventReads (eventHead 33 13)) ∧
    ¬ Inside 31 (eventReads (eventHead 162 31)) ∧
    ¬ Inside 19 (eventReads (eventHead 35 19)) ∧
    ¬ Inside 13 (eventListReads 13 (eventHead 33 13)) ∧
    ¬ Inside 32 (previousGTIDEventReads
      (leBytes 8 1 ++ List.replicate 16 17 ++ leBytes 8 1) 32) ∧
    ¬ Inside 0 (previousGTIDCommandReads []) ∧
    (parseEvent (eventHead 33 20)).1 = .ok := by
  decide +kernel

end PhxSql.Gtid
