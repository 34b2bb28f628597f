import Mathlib.Data.List.Forall2
import PhxSql.Proto.Messages

/-!
# Relaying the result of a query

In the `QUERY` state `DealWithQuery` takes the answer of the master and hands it on to the replica:
a packet with the number of columns, the packets of the columns and of the rows, each of the two
sections with an end marker behind it. On a connection to its own machine the value of `server_id`
or `server_uuid` in a row is rewritten by `PraseCommand`.

The bodies of both loops declare a result variable of their own. The variable that `DealWithQuery`
tests and returns behind them is never set, so that a section that breaks off counts as a section
that has ended. `query_complete_iff` says which answers are handed on in whole.
-/

set_option autoImplicit false

namespace PhxSql.Repl

open PhxSql.Proto

/-! ## Packets -/

/-- `ReplicationSlave::ReceivePkg` for the packet that `NetIO::Receive` has read. An error packet is
only logged. -/
def receivePkg (recvBuff : Bytes) : RetCode :=
  if recvBuff.length = 0 then .dataEmpty else .ok

/-- `ReplicationSlave::IsQuerryEnd`. -/
def isQuerryEnd (buffer : Bytes) : Bool :=
  buffer.length < 8 ∧ buffer.headD 0 = 254

/-! ## The value of a row -/

/-- `tolower`. -/
def lowerCase (b : UInt8) : UInt8 :=
  if 65 ≤ b ∧ b ≤ 90 then b + 32 else b

/-- `strncasecmp` gives 0 for the whole key and a constant text. -/
def strncasecmp : Bytes → Bytes → Bool
  | [], _ => true
  -- The text ends with a zero byte, at which the comparison stops.
  | k :: _, [] => k = 0
  | k :: key, c :: check => lowerCase k = lowerCase c ∧ strncasecmp key check

/-- A signed byte below `'9'`. -/
def belowNine (b : UInt8) : Bool :=
  b < 57 ∨ 128 ≤ b

/-- A place in a buffer. -/
structure Field where
  pos : Nat
  len : Nat
  deriving DecidableEq, Repr

/-- The bytes at a place. -/
def Field.bytes (f : Field) (buffer : Bytes) : Bytes :=
  (buffer.drop f.pos).take f.len

/-- The loop of `PraseCommand` over the fields, from a position on; the fuel is the number of bytes
from there. -/
def fieldsFrom : Nat → Nat → Bytes → List Field
  | 0, _, _ => []
  | _ + 1, _, [] => []
  | fuel + 1, pos, len :: rest =>
    if rest.length < len.toNat then []
    else ⟨pos + 1, len.toNat⟩ :: fieldsFrom fuel (pos + 1 + len.toNat) (rest.drop len.toNat)

def fields (buffer : Bytes) : List Field :=
  fieldsFrom buffer.length 0 buffer

/-- The value with every byte but the first raised by one if it is below `'9'`. -/
def raised (value : Bytes) : Bytes :=
  value.take 1 ++ (value.drop 1).map fun b => if belowNine b then b + 1 else b

/-- `ReWriteCommand`: whether a byte was changed, the old value if the key is the one to check, and
the buffer. -/
def reWriteCommand (buffer : Bytes) (key value : Field) (checkKey : Bytes) :
    Bool × Bytes × Bytes :=
  if strncasecmp (key.bytes buffer) checkKey then
    let old := value.bytes buffer
    ((old.drop 1).any belowNine, old,
      buffer.take value.pos ++ raised old ++ buffer.drop (value.pos + value.len))
  else (false, [], buffer)

/-- `server_id`. -/
def serverIdKey : Bytes :=
  [115, 101, 114, 118, 101, 114, 95, 105, 100]

/-- `server_uuid`. -/
def serverUuidKey : Bytes :=
  [115, 101, 114, 118, 101, 114, 95, 117, 117, 105, 100]

/-- The server id in `PraseCommand`, a number of 32 bits from signed bytes. -/
def pkgSvrId (value : Bytes) : Nat :=
  value.foldl (fun id b =>
    (id * 10 + (if b < 128 then b.toNat else b.toNat + (2 ^ 32 - 256)) + (2 ^ 32 - 48)) % 2 ^ 32) 0

/-- `ReplicationSlave::PraseCommand`: the result, and the buffer. -/
def praseCommand (svrId : Nat) (buffer : Bytes) : RetCode × Bytes :=
  if isQuerryEnd buffer then (.ok, buffer)
  else
    match fields buffer with
    | key :: value :: _ =>
      let (ok, old, buffer) := reWriteCommand buffer key value serverIdKey
      if ok then (if pkgSvrId old ≠ svrId then .svrIdConfit else .ok, buffer)
      else (.ok, (reWriteCommand buffer key value serverUuidKey).2.2)
    | _ => (.ok, buffer)

/-! ## The answer -/

/-- The connection for which an answer is relayed. -/
structure QueryCtx where
  isSelfConn : Bool
  engineSvrId : Nat

/-- What one part of `DealWithQuery` does: the packets that were received, those that were added to
`send_buffer`, and the packets that the master still delivers. -/
structure Relayed where
  received : List Bytes := []
  sendBuffer : List Bytes := []
  rest : List Bytes := []
  deriving DecidableEq, Repr

/-- The loop of `DealWithQuery` over the columns. -/
def relayFields : List Bytes → Relayed
  -- Nothing is received, and the loop is left.
  | [] => {}
  | recvBuff :: packets =>
    let ret := receivePkg recvBuff
    let pushed := if ret = .ok then [recvBuff] else []
    let ret := if recvBuff.length < 5 then .bufferFail else ret
    if ret ≠ .ok ∨ isQuerryEnd (recvBuff.drop 4) = true then
      { received := pushed, sendBuffer := pushed, rest := packets }
    else
      let more := relayFields packets
      { received := pushed ++ more.received
        sendBuffer := pushed ++ more.sendBuffer
        rest := more.rest }

/-- A packet of a row as it is handed on. -/
def relayRow (ctx : QueryCtx) (recvBuff : Bytes) : Bytes :=
  if ctx.isSelfConn then
    recvBuff.take 4 ++ (praseCommand ctx.engineSvrId (recvBuff.drop 4)).2
  else recvBuff

/-- The loop of `DealWithQuery` over the rows. -/
def relayRows (ctx : QueryCtx) : List Bytes → Relayed
  | [] => {}
  | recvBuff :: packets =>
    let received := if receivePkg recvBuff = .ok then [recvBuff] else []
    let ret := if recvBuff.length < 5 then .bufferFail else receivePkg recvBuff
    let recvBuff := if ret = .ok then relayRow ctx recvBuff else recvBuff
    let pushed := if ret = .ok then [recvBuff] else []
    if ret ≠ .ok ∨ isQuerryEnd (recvBuff.drop 4) = true then
      { received := received, sendBuffer := pushed, rest := packets }
    else
      let more := relayRows ctx packets
      { received := received ++ more.received
        sendBuffer := pushed ++ more.sendBuffer
        rest := more.rest }

/-- `ReplicationSlave::DealWithQuery` for the packets that the master delivers before a receive
fails. -/
def dealWithQuery (ctx : QueryCtx) : List Bytes → RetCode × Relayed
  | [] => (.socketFail, {})
  | recvBuff :: packets =>
    let ret := receivePkg recvBuff
    if ret ≠ .ok then (ret, { rest := packets })
    else if recvBuff.length < 5 ∨ (recvBuff.drop 4).headD 0 = 0 then
      (.ok, { received := [recvBuff], sendBuffer := [recvBuff], rest := packets })
    else
      -- The result of a loop is that of its inner variable, which is lost.
      let columns := relayFields packets
      let rows := relayRows ctx columns.rest
      (.ok,
        { received := recvBuff :: columns.received ++ rows.received
          sendBuffer := recvBuff :: columns.sendBuffer ++ rows.sendBuffer
          rest := rows.rest })

/-! ## What is rewritten -/

/-- Two buffers of the same length with the same bytes outside a field. -/
def AgreeOutside (f : Field) (buffer buffer' : Bytes) : Prop :=
  buffer'.length = buffer.length ∧
    ∀ i, i < f.pos ∨ f.pos + f.len ≤ i → buffer'[i]? = buffer[i]?

theorem AgreeOutside.refl (f : Field) (buffer : Bytes) : AgreeOutside f buffer buffer :=
  ⟨rfl, fun _ _ => rfl⟩

theorem AgreeOutside.trans {f : Field} {buffer buffer' buffer'' : Bytes}
    (h : AgreeOutside f buffer buffer') (h' : AgreeOutside f buffer' buffer'') :
    AgreeOutside f buffer buffer'' :=
  ⟨h'.1.trans h.1, fun i hi => (h'.2 i hi).trans (h.2 i hi)⟩

/-- The fields lie behind one another, each behind its length byte and inside the buffer. -/
theorem fieldsFrom_bounds (fuel : Nat) : ∀ (pos : Nat) (buffer : Bytes) {f : Field},
    f ∈ fieldsFrom fuel pos buffer → pos < f.pos ∧ f.pos + f.len ≤ pos + buffer.length := by
  induction fuel with
  | zero =>
    intro pos buffer f hf
    exact (List.not_mem_nil hf).elim
  | succ fuel ih =>
    intro pos buffer f hf
    cases buffer with
    | nil => exact (List.not_mem_nil hf).elim
    | cons len rest =>
      rw [fieldsFrom] at hf
      split at hf
      · exact (List.not_mem_nil hf).elim
      · rw [List.mem_cons] at hf
        rcases hf with rfl | hf
        · simp only [List.length_cons]
          omega
        · have hbounds := ih _ _ hf
          rw [List.length_drop] at hbounds
          rw [List.length_cons]
          omega

theorem length_raised (value : Bytes) : (raised value).length = value.length := by
  simp only [raised, List.length_append, List.length_take, List.length_map, List.length_drop]
  omega

theorem reWriteCommand_agreeOutside {buffer : Bytes} {value : Field}
    (hinside : value.pos + value.len ≤ buffer.length) (key : Field) (checkKey : Bytes) :
    AgreeOutside value buffer (reWriteCommand buffer key value checkKey).2.2 := by
  simp only [reWriteCommand]
  split
  · have hlen : (raised (value.bytes buffer)).length = value.len := by
      rw [length_raised, Field.bytes, List.length_take, List.length_drop]
      omega
    have hfront : (buffer.take value.pos).length = value.pos := by
      rw [List.length_take]
      omega
    refine ⟨?_, ?_⟩
    · simp only [List.length_append, hlen, hfront, List.length_drop]
      omega
    · rintro i (hi | hi)
      · rw [List.append_assoc, List.getElem?_append_left (by omega), List.getElem?_take_of_lt hi]
      · rw [List.getElem?_append_right (by rw [List.length_append]; omega), List.getElem?_drop,
          List.length_append, hlen, hfront]
        congr 1
        omega
  · exact AgreeOutside.refl _ _

/-- `buffer'` differs from `buffer` at most in the bytes of its second field. -/
def OnlyValueDiffers (buffer buffer' : Bytes) : Prop :=
  ∃ key value more, fields buffer = key :: value :: more ∧ AgreeOutside value buffer buffer'

theorem praseCommand_cases (svrId : Nat) (buffer : Bytes) :
    (praseCommand svrId buffer).2 = buffer ∨
      OnlyValueDiffers buffer (praseCommand svrId buffer).2 := by
  unfold praseCommand
  split
  · exact .inl rfl
  · split
    · rename_i key value more hfields
      refine .inr ⟨key, value, more, hfields, ?_⟩
      have hvalue : value ∈ fields buffer := by simp [hfields]
      have hinside : value.pos + value.len ≤ buffer.length := by
        have hbounds := fieldsFrom_bounds _ _ _ hvalue
        omega
      have hid := reWriteCommand_agreeOutside hinside key serverIdKey
      generalize reWriteCommand buffer key value serverIdKey = r at hid
      obtain ⟨ok, old, buffer'⟩ := r
      cases ok with
      | true => exact hid
      | false =>
        refine hid.trans (reWriteCommand_agreeOutside ?_ key serverUuidKey)
        rw [hid.1]
        exact hinside
    · exact .inl rfl

/-- The second field begins behind the first byte, which decides about the end of a section. -/
theorem OnlyValueDiffers.isQuerryEnd_eq {buffer buffer' : Bytes}
    (h : OnlyValueDiffers buffer buffer') : isQuerryEnd buffer' = isQuerryEnd buffer := by
  obtain ⟨key, value, more, hfields, hlength, hagree⟩ := h
  have hvalue : value ∈ fields buffer := by simp [hfields]
  have hfirst : buffer'.headD 0 = buffer.headD 0 := by
    have hzero := hagree 0 (.inl (Nat.zero_lt_of_lt (fieldsFrom_bounds _ _ _ hvalue).1))
    rw [List.headD_eq_head?_getD, List.headD_eq_head?_getD, List.head?_eq_getElem?,
      List.head?_eq_getElem?, hzero]
  rw [isQuerryEnd, isQuerryEnd, hlength, hfirst]

/-- A packet that was received and the packet that is handed on for it. -/
def HandedOn (ctx : QueryCtx) (recvBuff sent : Bytes) : Prop :=
  sent = recvBuff ∨ (ctx.isSelfConn = true ∧ sent.take 4 = recvBuff.take 4 ∧
    OnlyValueDiffers (recvBuff.drop 4) (sent.drop 4))


theorem relayRow_handedOn (ctx : QueryCtx) {recvBuff : Bytes} (hsize : 5 ≤ recvBuff.length) :
    HandedOn ctx recvBuff (relayRow ctx recvBuff) := by
  unfold relayRow
  split
  · rename_i hself
    have hheader : (recvBuff.take 4).length = 4 := by
      rw [List.length_take]
      omega
    rcases praseCommand_cases ctx.engineSvrId (recvBuff.drop 4) with hsame | hvalue
    · rw [hsame, List.take_append_drop]
      exact .inl rfl
    · refine .inr ⟨hself, ?_, ?_⟩
      · exact List.take_left' hheader
      · rw [List.drop_left' hheader]
        exact hvalue
  · exact .inl rfl

theorem HandedOn.isQuerryEnd_eq {ctx : QueryCtx} {recvBuff sent : Bytes}
    (h : HandedOn ctx recvBuff sent) :
    isQuerryEnd (sent.drop 4) = isQuerryEnd (recvBuff.drop 4) := by
  rcases h with rfl | ⟨-, -, hvalue⟩
  · rfl
  · exact hvalue.isQuerryEnd_eq

/-! ## Sections -/

/-- The end marker of a section. -/
def IsMarker (packet : Bytes) : Prop :=
  5 ≤ packet.length ∧ isQuerryEnd (packet.drop 4) = true

/-- A packet inside a section. -/
def IsEntry (packet : Bytes) : Prop :=
  5 ≤ packet.length ∧ isQuerryEnd (packet.drop 4) = false

instance (packet : Bytes) : Decidable (IsMarker packet) :=
  inferInstanceAs (Decidable (_ ∧ _))

/-- The steps of a loop over a section: an entry and an end marker are handed on, and a packet that
is too short ends the loop. -/
structure SectionLoop (loop : List Bytes → Relayed) (send : Bytes → Bytes) : Prop where
  nil : loop [] = {}
  entry : ∀ {p} packets, IsEntry p → loop (p :: packets) =
    { received := p :: (loop packets).received
      sendBuffer := send p :: (loop packets).sendBuffer
      rest := (loop packets).rest }
  marker : ∀ {p} packets, IsMarker p → loop (p :: packets) =
    { received := [p], sendBuffer := [send p], rest := packets }
  short : ∀ {p} packets, p.length < 5 → ∀ x ∈ (loop (p :: packets)).received, x = p

theorem relayFields_sectionLoop : SectionLoop relayFields id where
  nil := rfl
  entry := by
    rintro p packets ⟨hsize, hentry⟩
    have hreceived : receivePkg p = .ok := if_neg (by omega)
    simp only [relayFields, hreceived, hentry, if_true, if_neg (Nat.not_lt.mpr hsize), id]
    rfl
  marker := by
    rintro p packets ⟨hsize, hmarker⟩
    have hreceived : receivePkg p = .ok := if_neg (by omega)
    simp only [relayFields, hreceived, hmarker, or_true, if_true, id]
  short := by
    intro p packets hshort x hx
    simp only [relayFields, if_pos hshort, ne_eq, reduceCtorEq, not_false_iff, true_or,
      if_true] at hx
    split at hx
    · exact List.mem_singleton.mp hx
    · exact (List.not_mem_nil hx).elim

theorem relayRows_sectionLoop (ctx : QueryCtx) : SectionLoop (relayRows ctx) (relayRow ctx) where
  nil := rfl
  entry := by
    rintro p packets ⟨hsize, hentry⟩
    have hreceived : receivePkg p = .ok := if_neg (by omega)
    have hend := (relayRow_handedOn ctx hsize).isQuerryEnd_eq.trans hentry
    simp only [relayRows, hreceived, hend, if_true, if_neg (Nat.not_lt.mpr hsize)]
    rfl
  marker := by
    rintro p packets ⟨hsize, hmarker⟩
    have hreceived : receivePkg p = .ok := if_neg (by omega)
    have hend := (relayRow_handedOn ctx hsize).isQuerryEnd_eq.trans hmarker
    simp only [relayRows, hreceived, hend, or_true, if_true, if_neg (Nat.not_lt.mpr hsize)]
  short := by
    intro p packets hshort x hx
    simp only [relayRows, if_pos hshort, ne_eq, reduceCtorEq, not_false_iff, true_or, if_true,
      if_false] at hx
    split at hx
    · exact List.mem_singleton.mp hx
    · exact (List.not_mem_nil hx).elim

section SectionLoop

variable {loop : List Bytes → Relayed} {send : Bytes → Bytes} (hloop : SectionLoop loop send)

include hloop

/-- A section that is delivered in whole. -/
theorem SectionLoop.whole {entries : List Bytes} {marker : Bytes}
    (hentries : ∀ p ∈ entries, IsEntry p) (hmarker : IsMarker marker) (rest : List Bytes) :
    loop (entries ++ marker :: rest) =
      { received := entries ++ [marker]
        sendBuffer := (entries ++ [marker]).map send
        rest := rest } := by
  induction entries with
  | nil => exact hloop.marker rest hmarker
  | cons p entries ih =>
    rw [List.forall_mem_cons] at hentries
    rw [List.cons_append, hloop.entry _ hentries.1, ih hentries.2]
    rfl

/-- A section that is not delivered in whole: no end marker is received. -/
theorem SectionLoop.broken (packets : List Bytes) :
    (∃ entries marker rest, packets = entries ++ marker :: rest ∧ (∀ p ∈ entries, IsEntry p) ∧
      IsMarker marker) ∨
    ∀ p ∈ (loop packets).received, ¬IsMarker p := by
  induction packets with
  | nil =>
    rw [hloop.nil]
    exact .inr fun p hp => (List.not_mem_nil hp).elim
  | cons p packets ih =>
    by_cases hsize : 5 ≤ p.length
    · cases hend : isQuerryEnd (p.drop 4) with
      | true => exact .inl ⟨[], p, packets, rfl, by simp, hsize, hend⟩
      | false =>
        have hentry : IsEntry p := ⟨hsize, hend⟩
        refine ih.imp ?_ ?_
        · rintro ⟨entries, marker, rest, rfl, hentries, hmarker⟩
          exact ⟨p :: entries, marker, rest, rfl, List.forall_mem_cons.mpr ⟨hentry, hentries⟩,
            hmarker⟩
        · intro hnone
          rw [hloop.entry _ hentry]
          refine List.forall_mem_cons.mpr ⟨?_, hnone⟩
          rintro ⟨-, hmarker⟩
          rw [hend] at hmarker
          cases hmarker
    · -- A packet that is too short ends the loop, and is no end marker.
      right
      intro x hx hmarker
      rw [hloop.short packets (by omega) x hx] at hmarker
      exact hsize hmarker.1

end SectionLoop

/-- The number of end markers. -/
def markers (packets : List Bytes) : Nat :=
  packets.countP fun p => decide (IsMarker p)

theorem markers_append (packets packets' : List Bytes) :
    markers (packets ++ packets') = markers packets + markers packets' :=
  List.countP_append

theorem markers_eq_zero {packets : List Bytes} (h : ∀ p ∈ packets, ¬IsMarker p) :
    markers packets = 0 := by
  simpa [markers, List.countP_eq_zero] using h

theorem markers_section {entries : List Bytes} {marker : Bytes}
    (hentries : ∀ p ∈ entries, IsEntry p) (hmarker : IsMarker marker) :
    markers (entries ++ [marker]) = 1 := by
  have hzero : markers entries = 0 := by
    refine markers_eq_zero fun p hp hend => ?_
    have hentry := (hentries p hp).2
    rw [hend.2] at hentry
    cases hentry
  rw [markers_append, hzero]
  simp [markers, hmarker]

/-- A loop receives at most one end marker, and one only at the end of its section. -/
theorem SectionLoop.markers_cases {loop : List Bytes → Relayed} {send : Bytes → Bytes}
    (hloop : SectionLoop loop send) (packets : List Bytes) :
    (∃ entries marker rest, packets = entries ++ marker :: rest ∧ (∀ p ∈ entries, IsEntry p) ∧
      IsMarker marker ∧ markers (loop packets).received = 1) ∨
    markers (loop packets).received = 0 := by
  rcases hloop.broken packets with ⟨entries, marker, rest, rfl, hentries, hmarker⟩ | hnone
  · refine .inl ⟨entries, marker, rest, rfl, hentries, hmarker, ?_⟩
    rw [hloop.whole hentries hmarker]
    exact markers_section hentries hmarker
  · exact .inr (markers_eq_zero hnone)

/-! ## Complete answers -/

/-- The first packet says that there are no columns: its body is empty or begins with a zero byte.
-/
def NoColumns (packet : Bytes) : Prop :=
  packet.length < 5 ∨ (packet.drop 4).headD 0 = 0

/-- The packets of a whole result: the number of columns, and two sections with their end markers.
-/
def WholeResult (packets : List Bytes) : Prop :=
  ∃ first columns marker rows marker',
    packets = first :: (columns ++ [marker]) ++ (rows ++ [marker']) ∧
      (∀ p ∈ columns, IsEntry p) ∧ IsMarker marker ∧ (∀ p ∈ rows, IsEntry p) ∧ IsMarker marker'

/-- `DealWithQuery` returns `OK` only for an answer without columns or after a whole result, and
then `send_buffer` holds all packets that were received. -/
def CompleteOrFailed (ctx : QueryCtx) (packets : List Bytes) : Prop :=
  (dealWithQuery ctx packets).1 = .ok →
    ((∃ first more, (dealWithQuery ctx packets).2.received = first :: more ∧ NoColumns first) ∨
      WholeResult (dealWithQuery ctx packets).2.received) ∧
    List.Forall₂ (HandedOn ctx) (dealWithQuery ctx packets).2.received
      (dealWithQuery ctx packets).2.sendBuffer

theorem forall₂_handedOn_map {ctx : QueryCtx} {send : Bytes → Bytes} {packets : List Bytes}
    (h : ∀ p ∈ packets, HandedOn ctx p (send p)) :
    List.Forall₂ (HandedOn ctx) packets (packets.map send) := by
  rw [List.forall₂_map_right_iff, List.forall₂_same]
  exact h

theorem size_of_section {entries : List Bytes} {marker : Bytes}
    (hentries : ∀ p ∈ entries, IsEntry p) (hmarker : IsMarker marker) :
    ∀ p ∈ entries ++ [marker], 5 ≤ p.length := by
  intro p hp
  rw [List.mem_append, List.mem_singleton] at hp
  rcases hp with hp | rfl
  · exact (hentries p hp).1
  · exact hmarker.1

theorem WholeResult.markers_tail {packets : List Bytes} (h : WholeResult packets) :
    markers packets.tail = 2 := by
  obtain ⟨first, columns, marker, rows, marker', rfl, hcolumns, hmarker, hrows, hmarker'⟩ := h
  rw [List.cons_append, List.tail_cons, markers_append, markers_section hcolumns hmarker,
    markers_section hrows hmarker']

/-- An answer without columns. -/
theorem completeOrFailed_of_noColumns (ctx : QueryCtx) {first : Bytes} (packets : List Bytes)
    (hnone : NoColumns first) : CompleteOrFailed ctx (first :: packets) := by
  intro hok
  by_cases hfirst : receivePkg first = .ok
  · have hquery : dealWithQuery ctx (first :: packets) =
        (.ok, { received := [first], sendBuffer := [first], rest := packets }) := by
      rw [NoColumns] at hnone
      simp only [dealWithQuery, hfirst, ne_eq, not_true_eq_false, if_false, hnone, if_true]
    rw [hquery]
    exact ⟨.inl ⟨first, [], rfl, hnone⟩, .cons (.inl rfl) .nil⟩
  · rw [dealWithQuery, if_pos hfirst] at hok
    exact absurd hok hfirst

theorem dealWithQuery_of_columns (ctx : QueryCtx) {first : Bytes} (packets : List Bytes)
    (hsome : ¬NoColumns first) : dealWithQuery ctx (first :: packets) = (.ok,
      { received := first ::
          ((relayFields packets).received ++ (relayRows ctx (relayFields packets).rest).received)
        sendBuffer := first ::
          ((relayFields packets).sendBuffer ++ (relayRows ctx (relayFields packets).rest).sendBuffer)
        rest := (relayRows ctx (relayFields packets).rest).rest }) := by
  have hfirst : receivePkg first = .ok := if_neg fun hzero => hsome (.inl (by omega))
  rw [NoColumns] at hsome
  simp only [dealWithQuery, hfirst, ne_eq, not_true_eq_false, if_false, hsome, List.cons_append]

/-- A result that is delivered in whole. -/
theorem completeOrFailed_of_whole (ctx : QueryCtx) {first : Bytes} {packets result : List Bytes}
    (hsome : ¬NoColumns first) (hresult : result <+: first :: packets)
    (hwhole : WholeResult result) : CompleteOrFailed ctx (first :: packets) := by
  have hwhole' := hwhole
  obtain ⟨first', columns, marker, rows, marker', rfl, hcolumns, hmarker, hrows, hmarker'⟩ := hwhole
  obtain ⟨rest, hpackets⟩ := hresult
  obtain ⟨rfl, rfl⟩ : first' = first ∧ columns ++ marker :: (rows ++ marker' :: rest) = packets := by
    simpa using hpackets
  intro _
  rw [dealWithQuery_of_columns ctx _ hsome, relayFields_sectionLoop.whole hcolumns hmarker,
    (relayRows_sectionLoop ctx).whole hrows hmarker', List.map_id]
  refine ⟨.inr hwhole', .cons (.inl rfl) (List.rel_append ?_ ?_)⟩
  · exact List.forall₂_same.mpr fun p _ => .inl rfl
  · refine forall₂_handedOn_map fun p hp => relayRow_handedOn ctx ?_
    exact size_of_section hrows hmarker' p hp

/-- A result is handed on whole or reported as failed if and only if the first packet says that
there are no columns (or there is none), or both sections are delivered with their end markers. -/
theorem query_complete_iff (ctx : QueryCtx) (packets : List Bytes) :
    CompleteOrFailed ctx packets ↔
      NoColumns (packets.headD []) ∨ ∃ result, result <+: packets ∧ WholeResult result := by
  cases packets with
  | nil => exact iff_of_true (fun h => by cases h) (.inl (.inl (by decide)))
  | cons first packets =>
    rw [List.headD_cons]
    by_cases hnone : NoColumns first
    · exact iff_of_true (completeOrFailed_of_noColumns ctx packets hnone) (.inl hnone)
    constructor
    · intro hcomplete
      rw [CompleteOrFailed, dealWithQuery_of_columns ctx packets hnone] at hcomplete
      rcases (hcomplete rfl).1 with ⟨first', more, hreceived, hnone'⟩ | hwhole
      · obtain rfl := (List.cons.inj hreceived).1
        exact absurd hnone' hnone
      -- Two end markers were received, so each loop has received one.
      have hcount := hwhole.markers_tail
      rw [List.tail_cons, markers_append] at hcount
      rcases relayFields_sectionLoop.markers_cases packets with
        ⟨columns, marker, rest, rfl, hcolumns, hmarker, hone⟩ | hzero
      · rw [relayFields_sectionLoop.whole hcolumns hmarker] at hone hcount
        dsimp only at hone hcount
        rcases (relayRows_sectionLoop ctx).markers_cases rest with
          ⟨rows, marker', rest', rfl, hrows, hmarker', -⟩ | hzero'
        · refine .inr ⟨first :: (columns ++ [marker]) ++ (rows ++ [marker']), ⟨rest', by simp⟩, ?_⟩
          exact ⟨first, columns, marker, rows, marker', rfl, hcolumns, hmarker, hrows, hmarker'⟩
        · omega
      · rcases (relayRows_sectionLoop ctx).markers_cases (relayFields packets).rest with
          ⟨-, -, -, -, -, -, hone⟩ | hzero' <;> omega
    · rintro (hnone' | ⟨result, hresult, hwhole⟩)
      · exact absurd hnone' hnone
      · exact completeOrFailed_of_whole ctx hnone hresult hwhole

/-- A packet with the given body. -/
def packet (body : Bytes) : Bytes :=
  [UInt8.ofNat body.length, 0, 0, 1] ++ body

/-- The number of columns, one column, an end marker and a row; then the connection is lost. -/
def truncatedResult : List Bytes :=
  [packet [1], packet [3, 100, 101, 102], packet [254, 0, 0, 2, 0], packet [1, 49]]

/-- The packets behind a lost connection and behind a packet without a body: `OK` is returned, and
in the second case the row without a body is left out. -/
theorem query_truncated :
    (¬CompleteOrFailed { isSelfConn := false, engineSvrId := 1 } truncatedResult ∧
      dealWithQuery { isSelfConn := false, engineSvrId := 1 } truncatedResult =
        (.ok, { received := truncatedResult, sendBuffer := truncatedResult })) ∧
    dealWithQuery { isSelfConn := false, engineSvrId := 1 } (truncatedResult ++ [packet []]) =
      (.ok, { received := truncatedResult ++ [packet []], sendBuffer := truncatedResult }) := by
  have hquery : dealWithQuery { isSelfConn := false, engineSvrId := 1 } truncatedResult =
      (.ok, { received := truncatedResult, sendBuffer := truncatedResult }) := by decide +kernel
  refine ⟨⟨?_, hquery⟩, by decide +kernel⟩
  intro hcomplete
  rw [CompleteOrFailed, hquery] at hcomplete
  rcases (hcomplete rfl).1 with ⟨first, more, hreceived, hnone⟩ | hwhole
  · obtain rfl := (List.cons.inj hreceived).1
    revert hnone
    unfold NoColumns
    decide
  · have hmarkers := hwhole.markers_tail
    revert hmarkers
    decide

end PhxSql.Repl
