import PhxSql.Lib.Bytes
import PhxSql.Proto.Messages
import Mathlib.Data.Prod.Lex

/-!
# GTIDs and binlog events

`GtidHandler`: the text form of a GTID, the parser that finds the GTIDs of a buffer of binlog
events, and the decoder of the GTID set a replica sends. The pointer arithmetic of the source
becomes reads at an offset of the buffer; a read past the end of the buffer, which the source does
not exclude, gives zeros.

GTIDs are compared as the event index compares them, by UUID text and then by number. `Canonical`
GTIDs are those the source generates from a 16-byte UUID and a number; on these the comparison is
exact.
-/

set_option autoImplicit false

namespace PhxSql.Gtid

open PhxSql.Proto PhxSql.Lib

/-! ## GTID text -/

def colon : UInt8 := 58

/-- `GtidHandler::ParseGTID`. -/
def parseGTID (gtid : Bytes) : Bytes × Nat :=
  if gtid.contains colon then
    let rest := (gtid.dropWhile fun b => b ≠ colon).tail
    (gtid.takeWhile fun b => b ≠ colon, (scanUnsigned 64 rest).getD 0)
  else
    (gtid, 0)

/-- `GtidHandler::GetUUIDByGTID`. -/
def getUUIDByGTID (gtid : Bytes) : Bytes :=
  if gtid.contains colon then gtid.takeWhile fun b => b ≠ colon else gtid

/-- `GtidHandler::GenGTID(uuid, seqno)`. -/
def genGTID (uuid : Bytes) (seqno : Nat) : Bytes :=
  uuid ++ colon :: decimal seqno

/-- `byte_to_hex`. -/
def byteToHex (n : Nat) : UInt8 :=
  if n < 10 then UInt8.ofNat (48 + n) else UInt8.ofNat (87 + n)

def hexPair (b : UInt8) : Bytes :=
  [byteToHex (b.toNat / 16), byteToHex (b.toNat % 16)]

/-- `bytes_per_section`. -/
def bytesPerSection : List Nat := [4, 2, 2, 2, 6]

/-- The sections of `GtidHandler::GenUUID`, each after the first with a dash before it. -/
def genSections : List Nat → Bytes → Bytes
  | [], _ => []
  | n :: ns, bs => 45 :: (bs.take n).flatMap hexPair ++ genSections ns (bs.drop n)

/-- `GtidHandler::GenUUID`. -/
def genUUID (bs : Bytes) : Bytes :=
  (genSections bytesPerSection bs).tail

/-- The order of the event index on GTIDs. -/
def gtidRank (gtid : Bytes) : List ℕ ×ₗ ℕ :=
  toLex (byteRank (parseGTID gtid).1, (parseGTID gtid).2)

/-! ## Binlog events -/

/-- `EventInfo`, without the MariaDB commit id, which nothing reads. -/
structure EventInfo where
  eventType : Nat := 0
  gtid : Bytes := []
  serverId : Nat := 0
  timeStamp : Nat := 0
  eventSize : Nat := 0
  previousGtidlist : List (Bytes × Bytes) := []
  deriving DecidableEq, Repr

/-- An unsigned integer of `len` bytes at a position of a buffer. -/
def getBuffer (buffer : Bytes) (pos len : Nat) : Nat :=
  leValue (readAt buffer pos len)

/-- The interval loop of `GtidHandler::ParsePreviousGTIDEvent`: for each interval the pair of its
text and the text of its last GTID, and the position after the intervals. -/
def parseIntervals (buffer uuid : Bytes) : Nat → Nat → List (Bytes × Bytes) × Nat
  | 0, pos => ([], pos)
  | n + 1, pos =>
    let first := getBuffer buffer pos 8
    let last := (getBuffer buffer (pos + 8) 8 + (2 ^ 64 - 1)) % 2 ^ 64
    let rest := parseIntervals buffer uuid n (pos + 16)
    ((uuid ++ colon :: decimal first ++ 45 :: decimal last, genGTID uuid last) :: rest.1, rest.2)

/-- The UUID loop of `GtidHandler::ParsePreviousGTIDEvent`. -/
def parseSids (buffer : Bytes) (len : Nat) : Nat → Nat → RetCode × List (Bytes × Bytes)
  | 0, pos => if pos ≠ len then (.eventParseFail, []) else (.ok, [])
  | n + 1, pos =>
    -- The difference is of type `size_t`, so it is small only if the position is inside.
    if pos ≤ len ∧ len - pos < 24 then (.eventParseFail, [])
    else
      let uuid := genUUID (readAt buffer pos 16)
      let intervals := parseIntervals buffer uuid (getBuffer buffer (pos + 16) 8) (pos + 24)
      let rest := parseSids buffer len n intervals.2
      (rest.1, intervals.1 ++ rest.2)

/-- `GtidHandler::ParsePreviousGTIDEvent` on the `len` bytes at the start of the buffer. -/
def parsePreviousGTIDEvent (buffer : Bytes) (len : Nat) : RetCode × List (Bytes × Bytes) :=
  parseSids buffer len (getBuffer buffer 0 8) 8

/-- `GtidHandler::ParsePreviousGTIDCommand`. -/
def parsePreviousGTIDCommand (buffer : Bytes) : RetCode × List (Bytes × Bytes) :=
  let nameInfoSize := getBuffer buffer 6 4
  let pos := 10 + nameInfoSize + 8
  let dataSize := getBuffer buffer pos 4
  if pos + 4 + dataSize ≠ buffer.length then (.bufferFail, [])
  else parsePreviousGTIDEvent (buffer.drop (pos + 4)) dataSize

/-- The GTID of an event, by its type: MariaDB, Percona (`GetMariaDBGTID`, `GetPerconaGTID`). -/
def eventGtid (buffer : Bytes) (eventType serverId : Nat) : Bytes :=
  if eventType = 162 then
    if 30 < buffer.length then
      decimal (getBuffer buffer 27 4) ++ 45 :: decimal serverId ++
        45 :: decimal (getBuffer buffer 19 8)
    else []
  else if eventType = 33 then
    -- The remaining size is of type `size_t`: it is large when the buffer ends before it.
    if buffer.length < 19 ∨ 24 < buffer.length - 19 then
      genGTID (genUUID (readAt buffer 20 16)) (getBuffer buffer 36 8)
    else []
  else []

/-- `GtidHandler::ParseEvent`. -/
def parseEvent (buffer : Bytes) : RetCode × EventInfo :=
  if buffer.length < 13 then (.eventParseFail, {})
  else
    let eventType := getBuffer buffer 4 1
    let serverId := getBuffer buffer 5 4
    if 200 ≤ eventType then (.eventParseFail, {})
    else
      (.ok,
        { eventType := eventType
          gtid := eventGtid buffer eventType serverId
          serverId := serverId
          timeStamp := getBuffer buffer 0 4
          eventSize := getBuffer buffer 9 4
          previousGtidlist :=
            if eventType = 35 then
              (parsePreviousGTIDEvent (buffer.drop 19) ((buffer.length + 2 ^ 64 - 19) % 2 ^ 64)).2
            else [] })

/-- The loop of `GtidHandler::ParseEventList`: for each event its bytes and its GTID. The fuel is
the number of bytes left, since an event is not empty. -/
def parseEvents : Nat → Bytes → RetCode × List (Bytes × Bytes)
  | 0, _ => (.ok, [])
  | fuel + 1, buffer =>
    if buffer.isEmpty then (.ok, [])
    else
      let parsed := parseEvent buffer
      if parsed.1 ≠ .ok then (parsed.1, [])
      else if parsed.2.eventSize = 0 ∨ buffer.length < parsed.2.eventSize then (.eventParseFail, [])
      else
        let rest := parseEvents fuel (buffer.drop parsed.2.eventSize)
        (rest.1, (buffer.take parsed.2.eventSize, parsed.2.gtid) :: rest.2)

/-- `GtidHandler::ParseEventList`; an event without a GTID gives an empty one. -/
def parseEventList (buffer : Bytes) : RetCode × List (Bytes × Bytes) :=
  parseEvents buffer.length buffer

/-! ## The comparison of GTIDs -/

theorem getUUIDByGTID_eq (gtid : Bytes) : getUUIDByGTID gtid = (parseGTID gtid).1 := by
  unfold getUUIDByGTID parseGTID
  split <;> rfl

theorem parseGTID_genGTID {uuid : Bytes} {n : Nat} (huuid : colon ∉ uuid) (hn : n < 2 ^ 64) :
    parseGTID (genGTID uuid n) = (uuid, n) := by
  have hall : ∀ b ∈ uuid, decide (b ≠ colon) = true := by
    intro b hb
    rw [decide_eq_true_eq]
    rintro rfl
    exact huuid hb
  have htake : (uuid ++ colon :: decimal n).takeWhile (fun b => decide (b ≠ colon)) = uuid := by
    rw [List.takeWhile_append_of_pos hall, List.takeWhile_cons_of_neg (by simp), List.append_nil]
  have hdrop : (uuid ++ colon :: decimal n).dropWhile (fun b => decide (b ≠ colon)) =
      colon :: decimal n := by
    rw [List.dropWhile_append_of_pos hall, List.dropWhile_cons_of_neg (by simp)]
  have hscan : scanUnsigned 64 (decimal n) = some n := by
    have h := @scanUnsigned_decimal 64 n hn [] (by simp)
    rwa [List.append_nil] at h
  have hmem : (uuid ++ colon :: decimal n).contains colon = true := by simp
  simp only [parseGTID, genGTID, hmem, if_true, htake, hdrop, List.tail_cons, hscan,
    Option.getD_some]

/-- A byte that is neither a dash nor a hexadecimal digit. -/
def NotUuidByte (c : UInt8) : Prop :=
  c ≠ 45 ∧ ∀ n < 16, byteToHex n ≠ c

theorem not_mem_hexPair {c : UInt8} (hc : NotUuidByte c) (b : UInt8) : c ∉ hexPair b := by
  have hb : b.toNat < 256 := b.toNat_lt
  simp only [hexPair, List.mem_cons, List.not_mem_nil, or_false, not_or]
  exact ⟨(hc.2 _ (by omega)).symm, (hc.2 _ (by omega)).symm⟩

theorem not_mem_genSections {c : UInt8} (hc : NotUuidByte c) (ns : List Nat) (bs : Bytes) :
    c ∉ genSections ns bs := by
  induction ns generalizing bs with
  | nil => simp [genSections]
  | cons n ns ih =>
    simp only [genSections, List.cons_append, List.mem_cons, List.mem_append, List.mem_flatMap,
      not_or, not_exists, not_and]
    exact ⟨hc.1, fun b _ => not_mem_hexPair hc b, ih _⟩

theorem not_mem_genUUID {c : UInt8} (hc : NotUuidByte c) (bs : Bytes) : c ∉ genUUID bs :=
  fun h => not_mem_genSections hc _ bs (List.mem_of_mem_tail h)

theorem colon_not_mem_genUUID (bs : Bytes) : colon ∉ genUUID bs :=
  not_mem_genUUID (by unfold NotUuidByte; decide) bs

/-- GTIDs as the source generates them. -/
def Canonical (gtid : Bytes) : Prop :=
  ∃ (sid : Bytes) (n : Nat), sid.length = 16 ∧ n < 2 ^ 64 ∧ gtid = genGTID (genUUID sid) n

theorem Canonical.ne_nil {gtid : Bytes} (h : Canonical gtid) : gtid ≠ [] := by
  obtain ⟨sid, n, -, -, rfl⟩ := h
  simp [genGTID]

/-- A canonical GTID is the text of what it parses to. -/
theorem Canonical.genGTID_parseGTID {gtid : Bytes} (h : Canonical gtid) :
    genGTID (parseGTID gtid).1 (parseGTID gtid).2 = gtid := by
  obtain ⟨sid, n, -, hn, rfl⟩ := h
  rw [parseGTID_genGTID (colon_not_mem_genUUID sid) hn]

/-- The comparison identifies no two canonical GTIDs. -/
theorem Canonical.eq_of_gtidRank_eq {g g' : Bytes} (h : Canonical g) (h' : Canonical g')
    (hrank : gtidRank g = gtidRank g') : g = g' := by
  simp only [gtidRank, EmbeddingLike.apply_eq_iff_eq, Prod.mk.injEq, byteRank_inj] at hrank
  rw [← h.genGTID_parseGTID, ← h'.genGTID_parseGTID, hrank.1, hrank.2]

theorem parseGTID_genUUID {sid : Bytes} {n : Nat} (hn : n < 2 ^ 64) :
    parseGTID (genGTID (genUUID sid) n) = (genUUID sid, n) :=
  parseGTID_genGTID (colon_not_mem_genUUID sid) hn

/-- What lies between two GTIDs of one UUID has that UUID and a number between theirs. -/
theorem gtidRank_between {g k g' : Bytes} (huuid : (parseGTID g).1 = (parseGTID g').1)
    (hle : gtidRank g ≤ gtidRank k) (hle' : gtidRank k ≤ gtidRank g') :
    (parseGTID k).1 = (parseGTID g).1 ∧ (parseGTID g).2 ≤ (parseGTID k).2 ∧
      (parseGTID k).2 ≤ (parseGTID g').2 := by
  simp only [gtidRank, Prod.Lex.toLex_le_toLex, ← huuid] at hle hle'
  rcases hle with hlt | ⟨heq, hn⟩
  · rcases hle' with hlt' | ⟨heq', -⟩
    · exact absurd hlt (lt_asymm hlt')
    · exact absurd heq' (ne_of_gt hlt)
  · rcases hle' with hlt' | ⟨-, hn'⟩
    · exact absurd heq (ne_of_gt hlt')
    · exact ⟨(byteRank_inj.mp heq).symm, hn, hn'⟩

/-- GTIDs of one UUID are ordered by their numbers. -/
theorem gtidRank_le {g g' : Bytes} (huuid : (parseGTID g).1 = (parseGTID g').1)
    (hn : (parseGTID g).2 ≤ (parseGTID g').2) : gtidRank g ≤ gtidRank g' := by
  rw [gtidRank, gtidRank, Prod.Lex.toLex_le_toLex, huuid]
  exact .inr ⟨rfl, hn⟩

/-- The text of a GTID determines its UUID and number. -/
theorem genGTID_inj {uuid uuid' : Bytes} {n n' : Nat} (h : colon ∉ uuid) (h' : colon ∉ uuid')
    (heq : genGTID uuid n = genGTID uuid' n') : uuid = uuid' ∧ n = n' := by
  have htake : ∀ (u : Bytes) (m : Nat), colon ∉ u →
      (genGTID u m).takeWhile (fun b => decide (b ≠ colon)) = u := by
    intro u m hu
    rw [genGTID, List.takeWhile_append_of_pos, List.takeWhile_cons_of_neg (by simp),
      List.append_nil]
    intro b hb
    rw [decide_eq_true_eq]
    rintro rfl
    exact hu hb
  have huuid : uuid = uuid' := by
    rw [← htake uuid n h, heq, htake uuid' n' h']
  subst huuid
  have htail := List.append_cancel_left heq
  exact ⟨rfl, decimal_injective (List.cons.inj htail).2⟩

end PhxSql.Gtid
