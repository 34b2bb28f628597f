import PhxSql.Repl.ReplicationTransfer

/-!
# The packets on the connection to a replica

`SendWithSeq` puts a header of four bytes before each body: three bytes of its length and a sequence
byte. `Receive` reads a header and then as many bytes as it says. A call of `recv` may deliver less
than is wanted; the loop of `Receive` goes on until it has all (`receiveLoop_eq`).

The body of an event packet is a zero byte and the event, whose size has 32 bits. The header has
only the low 24 bits of the length, so the packets are received as they were sent exactly if every
body is shorter than `2 ^ 24` bytes (`framing_roundTrips_iff`).
-/

set_option autoImplicit false

namespace PhxSql.Repl

open PhxSql.Proto PhxSql.Lib PhxSql.Gtid

/-! ## Sending -/

/-- What `NetIO::SendWithSeq` puts on the connection, with complete sends. -/
def sendWithSeq (sendBuffer : Bytes) (seq : UInt8) : Bytes :=
  -- `memcpy` of three bytes of the length: its low 24 bits.
  leBytes 3 sendBuffer.length ++ seq :: sendBuffer

/-- The loop over `recv_buff` in `ReplicationTransfer::Process`: what it sends, and the sequence
byte of the context after it. -/
def sendAll : UInt8 → List Bytes → Bytes × UInt8
  | seq, [] => ([], seq)
  | seq, body :: bodies =>
    let rest := sendAll (seq + 1) bodies
    (sendWithSeq body seq ++ rest.1, rest.2)

/-- The rounds of `ReplicationTransfer::Process`, each with the events of one buffer. -/
def process : UInt8 → List Bytes → Bytes × UInt8
  | seq, [] => ([], seq)
  | seq, buffer :: buffers =>
    let sent := sendAll seq (withCharset (parseEventList buffer).2)
    let rest := process sent.2 buffers
    (sent.1 ++ rest.1, rest.2)

/-! ## Receiving -/

/-- The receiving end of a connection: the bytes on their way, and how many bytes beyond the first
the next calls of `recv` deliver at most. After the end of this list a call delivers all that is
wanted. -/
structure Connection where
  bytes : Bytes
  pace : List Nat
  deriving DecidableEq, Repr

/-- How many bytes the next call delivers at most. -/
def Connection.most (c : Connection) (want : Nat) : Nat :=
  match c.pace with
  | [] => want
  | n :: _ => min want (n + 1)

/-- `recv`; no bytes mean that the connection has ended. -/
def Connection.recv (c : Connection) (want : Nat) : Bytes × Connection :=
  (c.bytes.take (c.most want), ⟨c.bytes.drop (c.most want), c.pace.tail⟩)

/-- `NetIO::Receive` of a number of bytes; none if the connection ends before (`SOCKET_LOST`). The
fuel is that number, since a call of `recv` that delivers nothing ends the loop. -/
def receiveLoop : Nat → Nat → Connection → Option (Bytes × Connection)
  | _, 0, c => some ([], c)
  | 0, _ + 1, _ => none
  | fuel + 1, want + 1, c =>
    let got := c.recv (want + 1)
    if got.1.isEmpty then none
    else
      (receiveLoop fuel (want + 1 - got.1.length) got.2).map fun r => (got.1 ++ r.1, r.2)

/-- `NetIO::Receive` of a packet. -/
def receive (c : Connection) : Option (Bytes × Connection) :=
  match receiveLoop 4 4 c with
  | none => none
  | some (header, c) =>
    let bodyLen := leValue (header.take 3)
    (receiveLoop bodyLen bodyLen c).map fun r => (header ++ r.1, r.2)

/-- `NetIO::Receive` a number of times. -/
def receiveMany : Nat → Connection → Option (List Bytes × Connection)
  | 0, c => some ([], c)
  | n + 1, c =>
    match receive c with
    | none => none
    | some (packet, c) => (receiveMany n c).map fun r => (packet :: r.1, r.2)

theorem Connection.most_bounds (c : Connection) {want : Nat} (h : 0 < want) :
    0 < c.most want ∧ c.most want ≤ want := by
  unfold Connection.most
  split
  · exact ⟨h, Nat.le_refl _⟩
  · exact ⟨by omega, Nat.min_le_left _ _⟩

/-- However the bytes are delivered, the loop takes the wanted ones, or fails if there are too few.
-/
theorem receiveLoop_eq (fuel : Nat) : ∀ (want : Nat) (c : Connection), want ≤ fuel →
    (want ≤ c.bytes.length →
      ∃ pace, receiveLoop fuel want c = some (c.bytes.take want, ⟨c.bytes.drop want, pace⟩)) ∧
    (c.bytes.length < want → receiveLoop fuel want c = none) := by
  have hzero : ∀ (fuel : Nat) (c : Connection), receiveLoop fuel 0 c = some ([], c) := by
    intro fuel c
    cases fuel with
    | zero => rfl
    | succ fuel => rfl
  induction fuel with
  | zero =>
    intro want c hfuel
    obtain rfl := Nat.le_zero.mp hfuel
    exact ⟨fun _ => ⟨c.pace, hzero 0 c⟩, fun h => absurd h (Nat.not_lt_zero _)⟩
  | succ fuel ih =>
    intro want c hfuel
    cases want with
    | zero => exact ⟨fun _ => ⟨c.pace, hzero _ c⟩, fun h => absurd h (Nat.not_lt_zero _)⟩
    | succ want =>
      obtain ⟨hpos, hle⟩ := c.most_bounds (Nat.succ_pos want)
      generalize hm : c.most (want + 1) = m at hpos hle
      have hrecv : c.recv (want + 1) = (c.bytes.take m, ⟨c.bytes.drop m, c.pace.tail⟩) := by
        rw [Connection.recv, hm]
      rw [receiveLoop, hrecv]
      simp only
      by_cases hempty : c.bytes = []
      · rw [hempty]
        exact ⟨fun h => absurd h (by simp), fun _ => by simp⟩
      · -- Something is delivered, and the rest is wanted from the rest of the bytes.
        have htake : (c.bytes.take m).isEmpty = false := by
          rw [List.isEmpty_eq_false_iff, ne_eq, List.take_eq_nil_iff, not_or]
          exact ⟨by omega, hempty⟩
        have hbytes := List.length_pos_iff.mpr hempty
        rw [htake, List.length_take]
        simp only [Bool.false_eq_true, if_false]
        obtain ⟨hmore, hless⟩ := ih (want + 1 - min m c.bytes.length)
          ⟨c.bytes.drop m, c.pace.tail⟩ (by omega)
        simp only [List.length_drop] at hmore hless
        constructor
        · intro hwant
          have hmin : min m c.bytes.length = m := by omega
          rw [hmin] at hmore ⊢
          obtain ⟨pace, hrest⟩ := hmore (by omega)
          refine ⟨pace, ?_⟩
          have hsplit : c.bytes.take m ++ (c.bytes.drop m).take (want + 1 - m) =
              c.bytes.take (want + 1) := by
            rw [← List.take_add, Nat.add_sub_cancel' hle]
          rw [hrest, Option.map_some, hsplit, List.drop_drop, Nat.add_sub_cancel' hle]
        · intro hwant
          rw [hless (by omega), Option.map_none]

/-- The first packet of what was sent: its header says the low 24 bits of the length of the body,
and so many bytes are taken. -/
theorem receive_sendWithSeq (body rest : Bytes) (seq : UInt8) (pace : List Nat) :
    ∃ pace', receive ⟨sendWithSeq body seq ++ rest, pace⟩ =
      some (leBytes 3 body.length ++ seq :: body.take (body.length % 2 ^ 24),
        ⟨body.drop (body.length % 2 ^ 24) ++ rest, pace'⟩) := by
  have hheader : (leBytes 3 body.length ++ [seq]).length = 4 := by simp
  have hbytes : sendWithSeq body seq ++ rest =
      (leBytes 3 body.length ++ [seq]) ++ (body ++ rest) := by
    simp [sendWithSeq]
  have hmod : body.length % 2 ^ 24 ≤ body.length := Nat.mod_le _ _
  obtain ⟨pace₁, hfour⟩ := (receiveLoop_eq 4 4 ⟨sendWithSeq body seq ++ rest, pace⟩
    (Nat.le_refl 4)).1 (by simp [hbytes]; omega)
  obtain ⟨pace₂, hbody⟩ := (receiveLoop_eq (body.length % 2 ^ 24) (body.length % 2 ^ 24)
    ⟨body ++ rest, pace₁⟩ (Nat.le_refl _)).1 (by simp; omega)
  have hlen : leValue ((leBytes 3 body.length ++ [seq]).take 3) = body.length % 2 ^ 24 := by
    have hpow : 256 ^ 3 = 2 ^ 24 := by decide
    rw [List.take_left' (length_leBytes 3 _), leValue_leBytes, hpow]
  rw [hbytes, List.take_left' hheader, List.drop_left' hheader, ← hbytes] at hfour
  refine ⟨pace₂, ?_⟩
  rw [receive, hfour]
  simp only [hlen, hbody, Option.map_some, List.take_append_of_le_length hmod,
    List.drop_append_of_le_length hmod]
  simp

/-! ## The round trip -/

/-- The packets as the replica is meant to receive them. -/
def packets : UInt8 → List Bytes → List Bytes
  | _, [] => []
  | seq, body :: bodies => (leBytes 3 body.length ++ seq :: body) :: packets (seq + 1) bodies

/-- The bodies of all rounds. -/
def sentBodies (buffers : List Bytes) : List Bytes :=
  buffers.flatMap fun buffer => withCharset (parseEventList buffer).2

/-- However the connection delivers the bytes of the rounds, receiving as many packets as there are
bodies gives the packets in order and takes all bytes. -/
def RoundTrips (seq : UInt8) (buffers : List Bytes) : Prop :=
  ∀ pace, ∃ pace', receiveMany (sentBodies buffers).length ⟨(process seq buffers).1, pace⟩ =
    some (packets seq (sentBodies buffers), ⟨[], pace'⟩)

theorem sendAll_append (bodies bodies' : List Bytes) : ∀ seq : UInt8,
    sendAll seq (bodies ++ bodies') =
      ((sendAll seq bodies).1 ++ (sendAll (sendAll seq bodies).2 bodies').1,
        (sendAll (sendAll seq bodies).2 bodies').2) := by
  induction bodies with
  | nil =>
    intro seq
    rfl
  | cons body bodies ih =>
    intro seq
    simp only [List.cons_append, sendAll, ih, List.append_assoc]

/-- The rounds send what one round with all bodies would. -/
theorem process_eq (buffers : List Bytes) : ∀ seq : UInt8,
    process seq buffers = sendAll seq (sentBodies buffers) := by
  induction buffers with
  | nil =>
    intro seq
    rfl
  | cons buffer buffers ih =>
    intro seq
    simp only [process, ih, sentBodies, List.flatMap_cons, sendAll_append]

/-- The sequence bytes go up by one from packet to packet, modulo 256. -/
theorem packets_seq (bodies : List Bytes) : ∀ (seq : UInt8) (i : Nat) (packet : Bytes),
    (packets seq bodies)[i]? = some packet → packet[3]? = some (seq + UInt8.ofNat i) := by
  induction bodies with
  | nil =>
    intro seq i packet h
    cases h
  | cons body bodies ih =>
    intro seq i packet h
    cases i with
    | zero =>
      obtain rfl := Option.some.inj h
      have hget : (leBytes 3 body.length ++ seq :: body)[3]? = some seq := by
        rw [List.getElem?_append_right (by simp), length_leBytes]
        rfl
      rw [hget]
      simp
    | succ i =>
      have hget := ih (seq + 1) i packet h
      rw [hget, UInt8.ofNat_add, UInt8.add_assoc, UInt8.add_comm 1]
      rfl

/-- Receiving what was sent gives the packets exactly if every body fits its header. -/
theorem receiveMany_sendAll_iff (bodies : List Bytes) : ∀ (seq : UInt8) (pace : List Nat),
    (∃ pace', receiveMany bodies.length ⟨(sendAll seq bodies).1, pace⟩ =
      some (packets seq bodies, ⟨[], pace'⟩)) ↔ ∀ body ∈ bodies, body.length < 2 ^ 24 := by
  induction bodies with
  | nil =>
    intro seq pace
    exact iff_of_true ⟨pace, rfl⟩ fun body hbody => absurd hbody List.not_mem_nil
  | cons body bodies ih =>
    intro seq pace
    obtain ⟨pace₁, hfirst⟩ := receive_sendWithSeq body (sendAll (seq + 1) bodies).1 seq pace
    simp only [List.length_cons, sendAll, receiveMany, hfirst, packets]
    by_cases hsmall : body.length < 2 ^ 24
    · -- The first packet is the one that was sent, and the next ones begin right behind it.
      rw [Nat.mod_eq_of_lt hsmall, List.take_length, List.drop_length, List.nil_append]
      rw [List.forall_mem_cons, and_iff_right hsmall, ← ih (seq + 1) pace₁]
      refine exists_congr fun pace' => ?_
      constructor
      · intro h
        obtain ⟨⟨ps, c⟩, hrest, heq⟩ := Option.map_eq_some_iff.mp h
        simp only [Prod.mk.injEq, List.cons.injEq, true_and] at heq
        rw [hrest, heq.1, heq.2]
      · intro h
        rw [h]
        rfl
    · -- The packet that is received is shorter than the one that was sent.
      refine iff_of_false ?_ fun hall => hsmall (hall body List.mem_cons_self)
      rintro ⟨pace', h⟩
      obtain ⟨⟨ps, c⟩, -, heq⟩ := Option.map_eq_some_iff.mp h
      simp only [Prod.mk.injEq, List.cons.injEq] at heq
      have hlen := congrArg List.length heq.1.1
      simp only [List.length_append, List.length_cons, List.length_take] at hlen
      have hmod : body.length % 2 ^ 24 < 2 ^ 24 := Nat.mod_lt _ (by decide)
      omega

/-- The bodies are the events, each with a zero byte before it. -/
theorem forall_sentBodies_iff (buffers : List Bytes) :
    (∀ body ∈ sentBodies buffers, body.length < 2 ^ 24) ↔
      ∀ buffer ∈ buffers, ∀ e ∈ (parseEventList buffer).2, e.1.length + 1 < 2 ^ 24 := by
  constructor
  · intro h buffer hbuffer e he
    apply h (0 :: e.1)
    exact List.mem_flatMap.mpr ⟨buffer, hbuffer, List.mem_map.mpr ⟨e, he, rfl⟩⟩
  · intro h body hbody
    obtain ⟨buffer, hbuffer, hmem⟩ := List.mem_flatMap.mp hbody
    obtain ⟨e, he, rfl⟩ := List.mem_map.mp hmem
    exact h buffer hbuffer e he

/-- The packets of all rounds have sequence bytes that go up by one modulo 256, and are received as
they were sent exactly if every event, with the zero byte before it, is shorter than `2 ^ 24`. -/
theorem framing_roundTrips_iff (seq : UInt8) (buffers : List Bytes) :
    (∀ (i : Nat) (packet : Bytes), (packets seq (sentBodies buffers))[i]? = some packet →
      packet[3]? = some (seq + UInt8.ofNat i)) ∧
    (RoundTrips seq buffers ↔
      ∀ buffer ∈ buffers, ∀ e ∈ (parseEventList buffer).2, e.1.length + 1 < 2 ^ 24) := by
  refine ⟨packets_seq (sentBodies buffers) seq, ?_⟩
  rw [RoundTrips, process_eq, ← forall_sentBodies_iff]
  constructor
  · intro h
    exact (receiveMany_sendAll_iff _ seq []).mp (h [])
  · intro h pace
    exact (receiveMany_sendAll_iff _ seq pace).mpr h

/-! ## An event of `2 ^ 24 - 1` bytes -/

/-- The first bytes of an event with that size. -/
def longEventHead : Bytes :=
  [0, 0, 0, 0, 0, 0, 0, 0, 0, 255, 255, 255, 0]

def longEvent : Bytes :=
  longEventHead ++ List.replicate (2 ^ 24 - 14) 0

theorem length_longEvent : longEvent.length = 2 ^ 24 - 1 := by
  have hhead : longEventHead.length = 13 := rfl
  rw [longEvent, List.length_append, List.length_replicate, hhead]
  omega

/-- A buffer that its first event fills. -/
theorem parseEventList_singleton {head rest : Bytes} (hlen : 13 ≤ head.length)
    (hok : (parseEvent head).1 = .ok)
    (hfill : (parseEvent head).2.eventSize = (head ++ rest).length) :
    ∃ gtid, parseEventList (head ++ rest) = (.ok, [(head ++ rest, gtid)]) := by
  obtain ⟨hcode, hsize⟩ := parseEvent_append rest hlen
  rw [hok] at hcode
  rw [hfill] at hsize
  have hpos : 0 < (head ++ rest).length := by
    rw [List.length_append]
    omega
  have hsplit := parseEventList_cons (List.length_pos_iff.mp hpos) hcode (hsize ▸ hpos)
    (Nat.le_of_eq hsize)
  rw [hsize, List.drop_length, List.take_length] at hsplit
  exact ⟨_, hsplit⟩

theorem parseEventList_longEvent : ∃ gtid, parseEventList longEvent = (.ok, [(longEvent, gtid)]) := by
  have hhead : (parseEvent longEventHead).1 = .ok ∧
      (parseEvent longEventHead).2.eventSize = 2 ^ 24 - 1 := by decide +kernel
  have hlen : 13 ≤ longEventHead.length := Nat.le_refl 13
  apply parseEventList_singleton hlen hhead.1
  rw [hhead.2]
  exact length_longEvent.symm

/-- The header of the packet says that there is no body: the replica gets an empty packet, and the
event is still to be read as if it were the next packets. -/
theorem framing_loses_longEvent :
    (parseEventList longEvent).1 = .ok ∧ ¬ RoundTrips 0 [longEvent] ∧
      ∃ pace, receive ⟨(process 0 [longEvent]).1, []⟩ =
        some ([0, 0, 0, 0], ⟨0 :: longEvent, pace⟩) := by
  obtain ⟨gtid, hparse⟩ := parseEventList_longEvent
  have hbodies : sentBodies [longEvent] = [0 :: longEvent] := by
    simp only [sentBodies, List.flatMap_cons, List.flatMap_nil, hparse, withCharset, List.map_cons,
      List.map_nil, List.append_nil]
  have hlen : (0 :: longEvent).length = 2 ^ 24 := by
    rw [List.length_cons, length_longEvent]
    omega
  refine ⟨by rw [hparse], ?_, ?_⟩
  · intro h
    obtain ⟨pace', hreceived⟩ := h []
    rw [process_eq] at hreceived
    have hsmall := (receiveMany_sendAll_iff _ 0 []).mp ⟨pace', hreceived⟩ (0 :: longEvent)
      (by rw [hbodies]; exact List.mem_singleton_self _)
    omega
  · obtain ⟨pace, hreceived⟩ := receive_sendWithSeq (0 :: longEvent) [] 0 []
    rw [hlen, Nat.mod_self, List.take_zero, List.drop_zero, List.append_nil,
      List.append_nil] at hreceived
    refine ⟨pace, ?_⟩
    rw [process_eq, hbodies, sendAll, sendAll, List.append_nil, hreceived]
    rfl

end PhxSql.Repl
