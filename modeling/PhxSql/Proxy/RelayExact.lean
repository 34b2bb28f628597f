import PhxSql.Proxy.ConnectionRelay

/-!
# What a connection passes on

A proxy is to tell the server who its client is and then to be no more than a wire. `relay_exact` says
so for every run: the server has taken its header and a first part of what the client sent behind a
header of its own, the client a first part of what the server sent, and between two rounds of the loop
nothing that was read is missing. The one way to lose a byte is that of `WriteToDest`, which
`KeepsBytes` excludes.

The invariant is an equation between the bytes of the two sockets and the bytes that were read, with
what is still owed in the phase; each step moves bytes from one side to the other.
-/

set_option autoImplicit false

namespace PhxSql.Proxy

open PhxSql.Proto PhxSql.Lib

/-! ## What is passed on -/

namespace Relay

/-- The bytes of an end that are not passed on: the header of a client. -/
def skipped (s : Relay) : Side → Nat
  | .client => s.stripped
  | .server => 0

/-- What an end has to say to the other. -/
def stream (s : Relay) (side : Side) : Bytes :=
  (s.sent side).drop (s.skipped side)

/-- The part of it that was read. -/
def payload (s : Relay) (side : Side) : Bytes :=
  ((s.sent side).take (s.readSize side)).drop (s.skipped side)

/-- What an end is told before the other speaks. -/
def opening (s : Relay) : Side → Bytes
  | .client => []
  | .server => s.header

/-- No more is read than has arrived, and no more skipped than was read. -/
structure InBounds (s : Relay) : Prop where
  read_le : ∀ side, s.readSize side ≤ (s.sent side).length
  skipped_le : ∀ side, s.skipped side ≤ s.readSize side

/-- Nothing is passed on yet. -/
structure Fresh (s : Relay) : Prop where
  header : s.header = []
  written : ∀ side, s.written side = []
  read : ∀ side, s.readSize side = s.skipped side
  byteSizeTot : s.byteSizeTot = 0

/-- The two sockets lack exactly the bytes `owed`, and `byte_size_tot` lacks `inFlight` bytes. -/
structure Passing (s : Relay) (owed : Side → Bytes) (inFlight : Nat) : Prop where
  passed : ∀ side, s.written side ++ owed side = s.opening side ++ s.payload side.other
  counted : s.byteSizeTot + s.stripped + inFlight = s.readSize .client + s.readSize .server

/-- Where the addresses of the handler come from. At the proxy port they are those of a header at
the head of what has arrived, which is skipped; at the other port they are those of the
connection. -/
def Announced (cfg : RelayConfig) (s : Relay) : Prop :=
  if cfg.AtProxyPort then
    ∃ arrived stale, arrived <+: s.sent .client ∧
      parseProxyHeader cfg.inet (arrived.take 108 ++ stale) (min 108 arrived.length) cfg.own =
        some ((s.stripped : Int), s.addrs)
  else s.stripped = 0 ∧ s.addrs = cfg.own

/-- The connection to the server is open. -/
structure Opened (cfg : RelayConfig) (s : Relay) : Prop where
  header : makeProxyHeader cfg.inet cfg.version s.addrs = some s.header
  announced : s.Announced cfg

/-- Bytes for one of the ends. -/
def owedTo (side : Side) (bytes : Bytes) : Side → Bytes :=
  Function.update (fun _ => []) side bytes

/-- What holds in a phase. -/
def Stage (cfg : RelayConfig) (s : Relay) : Prop :=
  match s.phase with
  | .accepted => s.Fresh ∧ s.stripped = 0 ∧ s.addrs = cfg.own
  | .peeking => s.Fresh ∧ s.stripped = 0 ∧ s.addrs = cfg.own ∧ cfg.AtProxyPort
  | .connecting => s.Fresh ∧ s.Announced cfg
  | .sendingHeader _ => s.Opened cfg ∧ 8 ≤ s.header.length ∧ s.Passing (owedTo .server s.header) 0
  | .polling _ => s.Opened cfg ∧ s.Passing (fun _ => []) 0
  | .reading _ _ _ => s.Opened cfg ∧ s.Passing (fun _ => []) 0
  | .writing _ source _ buf w =>
    s.Opened cfg ∧ w.returned = none ∧
      s.Passing (owedTo source.other (buf.drop w.totalWritten)) buf.length
  | .ended => s.Fresh ∨ (s.Opened cfg ∧ ∃ owed inFlight, s.Passing owed inFlight)

/-! ## Arriving, reading, writing -/

section

variable {cfg : RelayConfig} {s : Relay}

theorem InBounds.arrive (h : s.InBounds) (side : Side) (bytes : Bytes) :
    (s.arrive side bytes).InBounds := by
  refine ⟨fun e => ?_, h.skipped_le⟩
  have hread := h.read_le e
  by_cases he : e = side
  · subst he
    simp only [Relay.arrive, Function.update_self, List.length_append]
    omega
  · simpa only [Relay.arrive, Function.update_of_ne he] using hread

theorem sent_prefix_arrive (side e : Side) (bytes : Bytes) :
    s.sent e <+: (s.arrive side bytes).sent e := by
  by_cases he : e = side
  · subst he
    simp only [arrive, Function.update_self]
    exact List.prefix_append _ _
  · simp only [arrive, Function.update_of_ne he]
    exact List.prefix_rfl

/-- What was read does not depend on what arrives later. -/
theorem payload_arrive (h : s.InBounds) (side e : Side) (bytes : Bytes) :
    (s.arrive side bytes).payload e = s.payload e := by
  obtain ⟨more, hmore⟩ := @sent_prefix_arrive s side e bytes
  have htake : ((s.arrive side bytes).sent e).take (s.readSize e) = (s.sent e).take (s.readSize e) := by
    rw [← hmore, List.take_append_of_le_length (h.read_le e)]
  exact congrArg (List.drop (s.skipped e)) htake

theorem Passing.arrive {owed : Side → Bytes} {inFlight : Nat} (hbounds : s.InBounds)
    (h : s.Passing owed inFlight) (side : Side) (bytes : Bytes) :
    (s.arrive side bytes).Passing owed inFlight := by
  refine ⟨fun e => ?_, h.counted⟩
  rw [payload_arrive hbounds]
  exact h.passed e

theorem Announced.arrive (h : s.Announced cfg) (side : Side) (bytes : Bytes) :
    (s.arrive side bytes).Announced cfg := by
  unfold Announced at h ⊢
  split
  · rename_i hport
    rw [if_pos hport] at h
    obtain ⟨arrived, stale, harrived, hparse⟩ := h
    exact ⟨arrived, stale, harrived.trans (sent_prefix_arrive side .client bytes), hparse⟩
  · rename_i hport
    rwa [if_neg hport] at h

theorem Opened.arrive (h : s.Opened cfg) (side : Side) (bytes : Bytes) :
    (s.arrive side bytes).Opened cfg :=
  ⟨h.header, h.announced.arrive side bytes⟩

theorem Fresh.arrive (h : s.Fresh) (side : Side) (bytes : Bytes) : (s.arrive side bytes).Fresh :=
  ⟨h.header, h.written, h.read, h.byteSizeTot⟩

theorem InBounds.consume (h : s.InBounds) {side : Side} {size : Nat}
    (hsize : size ≤ (s.unread side).length) : (s.consume side size).InBounds := by
  rw [unread, List.length_drop] at hsize
  constructor
  · intro e
    have hread := h.read_le e
    by_cases he : e = side
    · subst he
      simp only [Relay.consume, Function.update_self]
      omega
    · simpa only [Relay.consume, Function.update_of_ne he] using hread
  · intro e
    have hskip : (s.consume side size).skipped e ≤ s.readSize e := h.skipped_le e
    by_cases he : e = side
    · subst he
      simp only [Relay.consume, Function.update_self] at hskip ⊢
      omega
    · simpa only [Relay.consume, Function.update_of_ne he] using hskip

/-- A buffer that is read is added to what was read. -/
theorem payload_consume_self (h : s.InBounds) {side : Side} {buf : Bytes}
    (hbuf : buf <+: s.unread side) :
    (s.consume side buf.length).payload side = s.payload side ++ buf := by
  obtain ⟨rest, hrest⟩ := hbuf
  have hread := h.read_le side
  have htake : (s.sent side).take (s.readSize side + buf.length) =
      (s.sent side).take (s.readSize side) ++ buf := by
    rw [List.take_add, show (s.sent side).drop (s.readSize side) = buf ++ rest from hrest.symm,
      List.take_left]
  have hskip : s.skipped side ≤ ((s.sent side).take (s.readSize side)).length := by
    rw [List.length_take, Nat.min_eq_left hread]
    exact h.skipped_le side
  show ((s.sent side).take ((s.consume side buf.length).readSize side)).drop (s.skipped side) = _
  simp only [consume, Function.update_self]
  rw [htake, List.drop_append_of_le_length hskip]
  rfl

theorem payload_consume_other {side e : Side} (he : e ≠ side) (size : Nat) :
    (s.consume side size).payload e = s.payload e := by
  show ((s.sent e).take ((s.consume side size).readSize e)).drop (s.skipped e) = _
  simp only [consume, Function.update_of_ne he]
  rfl

theorem owedTo_self (side : Side) (bytes : Bytes) : owedTo side bytes side = bytes := by
  rw [owedTo, Function.update_self]

theorem owedTo_of_ne {side e : Side} (he : e ≠ side) (bytes : Bytes) : owedTo side bytes e = [] := by
  rw [owedTo, Function.update_of_ne he]

theorem owedTo_nil (side : Side) : owedTo side [] = fun _ => [] :=
  Function.update_eq_self side _

/-- Before anything is passed on, the server is owed its header. -/
theorem Fresh.passing (h : s.Fresh) (header : Bytes) :
    ({ s with header := header } : Relay).Passing (owedTo .server header) 0 := by
  have hpayload : ∀ side, s.payload side = [] := by
    intro side
    rw [payload, h.read side, List.drop_take, Nat.sub_self, List.take_zero]
  constructor
  · intro side
    show s.written side ++ _ = _ ++ s.payload side.other
    rw [h.written, hpayload, List.nil_append, List.append_nil]
    cases side <;> rfl
  · have hclient : s.readSize .client = s.stripped := h.read .client
    have hserver : s.readSize .server = 0 := h.read .server
    show s.byteSizeTot + s.stripped + 0 = s.readSize .client + s.readSize .server
    rw [h.byteSizeTot, hclient, hserver]
    omega

/-- A buffer that is read is owed to the other end. -/
theorem Passing.consume (hbounds : s.InBounds) (h : s.Passing (fun _ => []) 0) {source : Side}
    {buf : Bytes} (hbuf : buf <+: s.unread source) :
    (s.consume source buf.length).Passing (owedTo source.other buf) buf.length := by
  constructor
  · intro side
    have hpassed := h.passed side
    by_cases hside : side = source.other
    · subst hside
      rw [Side.other_other] at hpassed ⊢
      rw [owedTo_self, payload_consume_self hbounds hbuf, ← List.append_assoc]
      exact congrArg (· ++ buf) ((List.append_nil _).symm.trans hpassed)
    · have hother : side.other ≠ source := by
        rintro rfl
        exact hside (Side.other_other side).symm
      rw [owedTo_of_ne hside, payload_consume_other hother]
      exact hpassed
  · have hcounted := h.counted
    cases source <;> simp [Relay.consume] <;> omega

/-- Bytes that the socket takes are no longer owed. -/
theorem Passing.deliver {side : Side} {taken rest : Bytes} {inFlight : Nat}
    (h : s.Passing (owedTo side (taken ++ rest)) inFlight) :
    (s.deliver side taken).Passing (owedTo side rest) inFlight := by
  refine ⟨fun e => ?_, h.counted⟩
  have hpassed := h.passed e
  by_cases he : e = side
  · subst he
    rw [owedTo_self] at hpassed ⊢
    simp only [Relay.deliver, Function.update_self, List.append_assoc]
    exact hpassed
  · rw [owedTo_of_ne he] at hpassed ⊢
    simp only [Relay.deliver, Function.update_of_ne he]
    exact hpassed

/-- A buffer of which nothing is owed any more is counted. -/
theorem Passing.finish {inFlight : Nat} (h : s.Passing (fun _ => []) inFlight) :
    ({ s with byteSizeTot := s.byteSizeTot + inFlight } : Relay).Passing (fun _ => []) 0 := by
  refine ⟨h.passed, ?_⟩
  have hcounted := h.counted
  show s.byteSizeTot + inFlight + s.stripped + 0 = s.readSize .client + s.readSize .server
  omega

end

end Relay

/-! ## Steps keep the invariant -/

/-- What holds of a connection in every state. -/
structure RelayInv (cfg : RelayConfig) (s : Relay) : Prop where
  bounds : s.InBounds
  stage : s.Stage cfg

section Invariant

variable {cfg : RelayConfig} {s : Relay}

theorem relayInv_ended_of_fresh (hbounds : s.InBounds) (h : s.Fresh) :
    RelayInv cfg { s with phase := .ended } :=
  ⟨⟨hbounds.read_le, hbounds.skipped_le⟩, .inl ⟨h.header, h.written, h.read, h.byteSizeTot⟩⟩

theorem relayInv_ended {owed : Side → Bytes} {inFlight : Nat} (hbounds : s.InBounds)
    (hopened : s.Opened cfg) (h : s.Passing owed inFlight) :
    RelayInv cfg { s with phase := .ended } :=
  ⟨⟨hbounds.read_le, hbounds.skipped_le⟩,
    .inr ⟨⟨hopened.header, hopened.announced⟩, owed, inFlight, ⟨h.passed, h.counted⟩⟩⟩

theorem relayInv_polling (hbounds : s.InBounds) (hopened : s.Opened cfg)
    (h : s.Passing (fun _ => []) 0) (ch : IOChannel) :
    RelayInv cfg { s with phase := .polling ch } :=
  ⟨⟨hbounds.read_le, hbounds.skipped_le⟩, ⟨hopened.header, hopened.announced⟩, h.passed, h.counted⟩

theorem relayInv_afterDirect (hbounds : s.InBounds) (hopened : s.Opened cfg)
    (h : s.Passing (fun _ => []) 0) (ch : IOChannel) (source : Side) (events : Side → ReadEvents) :
    RelayInv cfg { s with phase := .afterDirect ch events source } := by
  cases source with
  | client =>
    exact ⟨⟨hbounds.read_le, hbounds.skipped_le⟩, ⟨hopened.header, hopened.announced⟩, h.passed,
      h.counted⟩
  | server => exact relayInv_polling hbounds hopened h ch

theorem RelayInv.arrive (h : RelayInv cfg s) (side : Side) (bytes : Bytes) :
    RelayInv cfg (s.arrive side bytes) := by
  refine ⟨h.bounds.arrive side bytes, ?_⟩
  have hstage := h.stage
  have hphase : (s.arrive side bytes).phase = s.phase := rfl
  unfold Relay.Stage at hstage ⊢
  rw [hphase]
  cases hp : s.phase with
  | accepted => rw [hp] at hstage; exact ⟨hstage.1.arrive side bytes, hstage.2⟩
  | peeking => rw [hp] at hstage; exact ⟨hstage.1.arrive side bytes, hstage.2⟩
  | connecting =>
    rw [hp] at hstage
    exact ⟨hstage.1.arrive side bytes, hstage.2.arrive side bytes⟩
  | sendingHeader ch =>
    rw [hp] at hstage
    obtain ⟨hopened, hne, hpassing⟩ := hstage
    exact ⟨hopened.arrive side bytes, hne, hpassing.arrive h.bounds side bytes⟩
  | polling ch =>
    rw [hp] at hstage
    exact ⟨hstage.1.arrive side bytes, hstage.2.arrive h.bounds side bytes⟩
  | reading ch source events =>
    rw [hp] at hstage
    exact ⟨hstage.1.arrive side bytes, hstage.2.arrive h.bounds side bytes⟩
  | writing ch source events buf w =>
    rw [hp] at hstage
    obtain ⟨hopened, hpending, hpassing⟩ := hstage
    exact ⟨hopened.arrive side bytes, hpending, hpassing.arrive h.bounds side bytes⟩
  | ended =>
    rw [hp] at hstage
    rcases hstage with hfresh | ⟨hopened, owed, inFlight, hpassing⟩
    · exact .inl (hfresh.arrive side bytes)
    · exact .inr ⟨hopened.arrive side bytes, owed, inFlight, hpassing.arrive h.bounds side bytes⟩

/-- A header is asked for exactly at the proxy port. -/
theorem isProxyHeaderNeed_eq_true_iff {inet : Inet} {worker : WorkerConfig} {c : GroupStatusCache}
    {addrs : ProxyAddrs} {need : Bool} (h : isProxyHeaderNeed inet worker c addrs = some need) :
    need = true ↔ (sockAddrToIPPort inet addrs.dst).map Prod.snd = some worker.proxyPort := by
  unfold isProxyHeaderNeed at h
  split at h
  · rename_i srcIp srcPort dstIp dstPort hsrc hdst
    rw [hdst, Option.map_some, Option.some.injEq]
    split at h
    · rename_i hport
      cases h
      exact iff_of_false (by decide) hport
    · rename_i hport
      rw [Option.ite_none_right_eq_some] at h
      cases h.2
      exact iff_of_true rfl (not_not.mp hport)
  · cases h

theorem RelayInv.isProxyHeaderNeed (h : RelayInv cfg s) (hphase : s.phase = .accepted)
    {need : Bool} {c : GroupStatusCache}
    (hneed : Proxy.isProxyHeaderNeed cfg.inet cfg.worker c s.addrs = some need) :
    RelayInv cfg { s with phase := if need then .peeking else .connecting } := by
  have hstage := h.stage
  rw [Relay.Stage, hphase] at hstage
  obtain ⟨hfresh, hstripped, haddrs⟩ := hstage
  rw [haddrs] at hneed
  have hport : need = true ↔ cfg.AtProxyPort := isProxyHeaderNeed_eq_true_iff hneed
  have hfresh' : ∀ phase, ({ s with phase := phase } : Relay).Fresh := fun _ =>
    ⟨hfresh.header, hfresh.written, hfresh.read, hfresh.byteSizeTot⟩
  refine ⟨⟨h.bounds.read_le, h.bounds.skipped_le⟩, ?_⟩
  cases need with
  | true => exact ⟨hfresh' _, hstripped, haddrs, hport.mp rfl⟩
  | false =>
    refine ⟨hfresh' _, ?_⟩
    rw [Relay.Announced, if_neg (fun hat => Bool.false_ne_true (hport.mpr hat))]
    exact ⟨hstripped, haddrs⟩

theorem RelayInv.processProxyHeader (h : RelayInv cfg s) (hphase : s.phase = .peeking)
    {stale : Bytes} {failed : Bool} {s' : Relay}
    (hs : s.processProxyHeader cfg stale failed = some s') : RelayInv cfg s' := by
  have hstage := h.stage
  rw [Relay.Stage, hphase] at hstage
  obtain ⟨hfresh, hstripped, haddrs, hport⟩ := hstage
  have hread : s.readSize .client = 0 := (hfresh.read .client).trans hstripped
  have hunread : s.unread .client = s.sent .client := by
    rw [Relay.unread, hread, List.drop_zero]
  simp only [Relay.processProxyHeader, Option.map_eq_some_iff] at hs
  obtain ⟨⟨hdrSize, addrs⟩, hparse, rfl⟩ := hs
  rw [hunread, haddrs] at hparse
  split
  · exact relayInv_ended_of_fresh (s := { s with addrs := addrs })
      ⟨h.bounds.read_le, h.bounds.skipped_le⟩
      ⟨hfresh.header, hfresh.written, hfresh.read, hfresh.byteSizeTot⟩
  · rename_i hok
    -- The header lies in what has arrived.
    have hsize : hdrSize.toNat ≤ (s.sent .client).length := by
      have hle := parseProxyHeader_le (by rw [List.length_append, List.length_take]; omega) hparse
      omega
    have hskip : ∀ side, (s.consume .client hdrSize.toNat).readSize side =
        ({ s with stripped := hdrSize.toNat } : Relay).skipped side := by
      intro side
      cases side with
      | client => simp [Relay.consume, hread, Relay.skipped]
      | server => exact hfresh.read .server
    have hbounds := h.bounds.consume (hunread ▸ hsize)
    refine ⟨⟨hbounds.read_le, fun side => Nat.le_of_eq (hskip side).symm⟩,
      ⟨hfresh.header, hfresh.written, hskip, hfresh.byteSizeTot⟩, ?_⟩
    rw [Relay.Announced, if_pos hport]
    refine ⟨s.sent .client, stale, List.prefix_rfl, ?_⟩
    rw [hparse, Int.toNat_of_nonneg (by omega)]

theorem RelayInv.connectDest (h : RelayInv cfg s) (hphase : s.phase = .connecting) (now : Nat)
    (cache : GroupStatusCache) (connected : Bool) :
    RelayInv cfg (s.connectDest cfg now cache connected) := by
  have hstage := h.stage
  rw [Relay.Stage, hphase] at hstage
  obtain ⟨hfresh, hannounced⟩ := hstage
  unfold Relay.connectDest
  split
  · rename_i ch header hpeer hheader
    have hopened : ({ s with header := header } : Relay).Opened cfg := ⟨hheader, hannounced⟩
    have hpassing := hfresh.passing header
    have hbounds : ({ s with header := header } : Relay).InBounds :=
      ⟨h.bounds.read_le, h.bounds.skipped_le⟩
    split
    · rename_i hversion
      rw [hversion] at hheader
      cases hheader
      rw [Relay.owedTo_nil] at hpassing
      exact relayInv_polling hbounds hopened hpassing ch
    · rename_i hversion
      exact ⟨⟨hbounds.read_le, hbounds.skipped_le⟩, ⟨hopened.header, hopened.announced⟩,
        (length_makeProxyHeader hversion hheader).1, ⟨hpassing.passed, hpassing.counted⟩⟩
  · exact relayInv_ended_of_fresh h.bounds hfresh

theorem RelayInv.sendProxyHeader (h : RelayInv cfg s) {ch : IOChannel}
    (hphase : s.phase = .sendingHeader ch) (a : Attempt) :
    RelayInv cfg (s.sendProxyHeader ch a) := by
  have hstage := h.stage
  rw [Relay.Stage, hphase] at hstage
  obtain ⟨hopened, hlen, hpassing⟩ := hstage
  have hopened' : ∀ taken, (s.deliver .server taken).Opened cfg := fun _ =>
    ⟨hopened.header, hopened.announced⟩
  have hbounds : ∀ taken, (s.deliver .server taken).InBounds := fun _ =>
    ⟨h.bounds.read_le, h.bounds.skipped_le⟩
  have hdeliver : ∀ k, (s.deliver .server (s.header.take k)).Passing
      (Relay.owedTo .server (s.header.drop k)) 0 := by
    intro k
    apply Relay.Passing.deliver
    rwa [List.take_append_drop]
  have hne : s.header ≠ [] := List.ne_nil_of_length_pos (by omega)
  unfold Relay.sendProxyHeader
  rcases routineWriteWithTimeout_cases hne a with ⟨-, hcall⟩ | ⟨-, code, hcode, hcall⟩ | ⟨-, n, hcall⟩
  · -- The descriptor count that is returned is no length of a header.
    rw [hcall]
    simp only [if_neg Int.one_ne_zero, if_neg (show ¬(1 : Int) = s.header.length by omega)]
    exact relayInv_ended (hbounds []) (hopened' []) (hdeliver 0)
  · rw [hcall]
    simp only [if_neg (show ¬code = 0 by omega), if_neg (show ¬code = s.header.length by omega)]
    exact relayInv_ended (hbounds []) (hopened' []) (hdeliver 0)
  · rw [hcall]
    simp only []
    split
    · rename_i hnone
      have htake : s.header.take n = [] := List.length_eq_zero_iff.mp (Int.ofNat_inj.mp hnone)
      rw [htake]
      exact ⟨⟨h.bounds.read_le, h.bounds.skipped_le⟩, ⟨hopened.header, hopened.announced⟩, hlen,
        ⟨(hdeliver 0).passed, (hdeliver 0).counted⟩⟩
    · split
      · rename_i hall
        have hdrop : s.header.drop n = [] := by
          rw [List.length_take] at hall
          exact List.drop_eq_nil_iff.mpr (by omega)
        have hpassed := hdeliver n
        rw [hdrop, Relay.owedTo_nil] at hpassed
        exact relayInv_polling (hbounds _) (hopened' _) hpassed ch
      · exact relayInv_ended (hbounds _) (hopened' _) (hdeliver n)

theorem RelayInv.transMsgDirect (h : RelayInv cfg s) {ch : IOChannel} {source : Side}
    {events : Side → ReadEvents} (hphase : s.phase = .reading ch source events) (now : Nat)
    (cache : GroupStatusCache) (size : Option Nat) :
    RelayInv cfg (s.transMsgDirect cfg ch source events now cache size) := by
  have hstage := h.stage
  rw [Relay.Stage, hphase] at hstage
  obtain ⟨hopened, hpassing⟩ := hstage
  have hafter := relayInv_afterDirect h.bounds hopened hpassing ch source events
  have hended := relayInv_ended h.bounds hopened hpassing
  unfold Relay.transMsgDirect
  split
  · simp only []
    split
    · exact hended
    · rename_i hne
      generalize hbuf : (s.unread source).take (min (size.getD 0) 16384) = buf at hne ⊢
      have hfront : buf <+: s.unread source := hbuf ▸ List.take_prefix _ _
      have hbounds := h.bounds.consume hfront.length_le
      have howed := hpassing.consume h.bounds hfront
      have hopened' : (s.consume source buf.length).Opened cfg := ⟨hopened.header, hopened.announced⟩
      unfold Relay.takeBuffer
      simp only []
      split
      · rename_i ch' hpassed
        refine ⟨⟨hbounds.read_le, hbounds.skipped_le⟩, ⟨hopened'.header, hopened'.announced⟩, ?_,
          ⟨howed.passed, howed.counted⟩⟩
        simp [WriteToDest.loop, List.length_pos_iff.mpr hne]
      · exact relayInv_ended hbounds hopened' howed
  · split
    · exact hafter
    · split
      · exact hended
      · exact hafter

theorem RelayInv.writeToDest (h : RelayInv cfg s) {ch : IOChannel} {source : Side}
    {events : Side → ReadEvents} {buf : Bytes} {w : WriteToDest buf}
    (hphase : s.phase = .writing ch source events buf w) {a : Attempt} (hkeeps : ¬a.HangsUp) :
    RelayInv cfg (s.writeToDest ch source events w a) := by
  have hstage := h.stage
  rw [Relay.Stage, hphase] at hstage
  obtain ⟨hopened, hpending, hpassing⟩ := hstage
  have hopened' : ∀ taken, (s.deliver source.other taken).Opened cfg := fun _ =>
    ⟨hopened.header, hopened.announced⟩
  have hbounds : ∀ taken, (s.deliver source.other taken).InBounds := fun _ =>
    ⟨h.bounds.read_le, h.bounds.skipped_le⟩
  have hlt := w.pending hpending
  have hne : buf.drop w.totalWritten ≠ [] := by
    rw [Ne, List.drop_eq_nil_iff]
    omega
  unfold Relay.writeToDest
  rcases routineWriteWithTimeout_cases hne a with ⟨hangs, -⟩ | ⟨-, code, hcode, hcall⟩ |
      ⟨-, n, hcall⟩
  · exact absurd hangs hkeeps
  · have hreturned : (w.iterate a).returned = some (-148) := by
      simp only [WriteToDest.iterate, hcall, if_pos hcode]
    rw [hreturned, hcall]
    exact relayInv_ended (hbounds []) (hopened' []) (Relay.Passing.deliver hpassing)
  · -- The socket takes a first part of what is left, and the position moves on by its length.
    generalize htaken : (buf.drop w.totalWritten).take n = taken at hcall
    obtain ⟨rest, hrest⟩ : taken <+: buf.drop w.totalWritten := htaken ▸ List.take_prefix _ _
    have hdrop : buf.drop (w.totalWritten + taken.length) = rest := by
      rw [← List.drop_drop, ← hrest, List.drop_left]
    have hiterate : w.iterate a =
        .loop buf (w.totalWritten + taken.length) (w.sent ++ taken) := by
      simp only [WriteToDest.iterate, hcall, Int.toNat_natCast]
      rw [if_neg (by omega)]
    have hdeliver : (s.deliver source.other taken).Passing
        (Relay.owedTo source.other (buf.drop (w.totalWritten + taken.length))) buf.length := by
      rw [hdrop]
      apply Relay.Passing.deliver
      rwa [hrest]
    rw [hiterate, hcall]
    by_cases hmore : w.totalWritten + taken.length < buf.length
    · have hreturned : (WriteToDest.loop buf (w.totalWritten + taken.length)
          (w.sent ++ taken)).returned = none := if_pos hmore
      simp only [hreturned]
      exact ⟨⟨h.bounds.read_le, h.bounds.skipped_le⟩, ⟨hopened.header, hopened.announced⟩, hreturned,
        ⟨hdeliver.passed, hdeliver.counted⟩⟩
    · have hall : w.totalWritten + taken.length = buf.length := by
        have hlen := congrArg List.length hrest
        rw [List.length_append, List.length_drop] at hlen
        omega
      rw [hall] at hdeliver ⊢
      rw [List.drop_length, Relay.owedTo_nil] at hdeliver
      have hreturned : (WriteToDest.loop buf buf.length (w.sent ++ taken)).returned =
          some (buf.length : Int) := if_neg (Nat.lt_irrefl _)
      simp only [hreturned, if_neg (Int.not_lt.mpr (Int.natCast_nonneg _)), Int.toNat_natCast]
      have hfinish := hdeliver.finish
      apply relayInv_afterDirect ?_ ?_ hfinish ch source events
      · exact ⟨h.bounds.read_le, h.bounds.skipped_le⟩
      · exact ⟨hopened.header, hopened.announced⟩

theorem RelayInv.step (h : RelayInv cfg s) {a : RelayAction} (hkeeps : KeepsBytes a) {s' : Relay}
    (hs : relayStep cfg s a = some s') : RelayInv cfg s' := by
  cases a with
  | arrive side bytes =>
    cases hs
    exact h.arrive side bytes
  | isProxyHeaderNeed cache =>
    cases hphase : s.phase <;> simp only [relayStep, hphase, reduceCtorEq] at hs
    have hfresh : s.Fresh := by
      have hstage := h.stage
      rw [Relay.Stage, hphase] at hstage
      exact hstage.1
    split at hs
    · rename_i hneed
      obtain ⟨c, -, hneed⟩ := Option.bind_eq_some_iff.mp hneed
      cases hs
      exact h.isProxyHeaderNeed hphase hneed
    · rename_i hneed
      obtain ⟨c, -, hneed⟩ := Option.bind_eq_some_iff.mp hneed
      cases hs
      exact h.isProxyHeaderNeed hphase hneed
    · cases hs
      exact relayInv_ended_of_fresh h.bounds hfresh
  | processProxyHeader stale failed =>
    cases hphase : s.phase <;> simp only [relayStep, hphase, reduceCtorEq] at hs
    cases stale with
    | some stale => exact h.processProxyHeader hphase hs
    | none =>
      have hstage := h.stage
      rw [Relay.Stage, hphase] at hstage
      cases hs
      exact relayInv_ended_of_fresh h.bounds hstage.1
  | connectDest now cache connected =>
    cases hphase : s.phase <;> simp only [relayStep, hphase, reduceCtorEq] at hs
    cases hs
    exact h.connectDest hphase now cache connected
  | sendProxyHeader attempt =>
    cases hphase : s.phase <;> simp only [relayStep, hphase, reduceCtorEq] at hs
    cases hs
    exact h.sendProxyHeader hphase attempt
  | poll events =>
    cases hphase : s.phase <;> simp only [relayStep, hphase, reduceCtorEq] at hs
    have hstage := h.stage
    rw [Relay.Stage, hphase] at hstage
    obtain ⟨hopened, hpassing⟩ := hstage
    cases events with
    | some events =>
      cases hs
      exact ⟨⟨h.bounds.read_le, h.bounds.skipped_le⟩, ⟨hopened.header, hopened.announced⟩,
        hpassing.passed, hpassing.counted⟩
    | none =>
      cases hs
      exact relayInv_ended h.bounds hopened hpassing
  | read now cache size =>
    cases hphase : s.phase <;> simp only [relayStep, hphase, reduceCtorEq] at hs
    cases hs
    exact h.transMsgDirect hphase now cache size
  | write attempt =>
    cases hphase : s.phase <;> simp only [relayStep, hphase, reduceCtorEq] at hs
    cases hs
    exact h.writeToDest hphase hkeeps

/-- The connection is open, or nothing is passed on. -/
theorem RelayInv.fresh_or_opened (h : RelayInv cfg s) :
    s.Fresh ∨ (s.Opened cfg ∧ ∃ owed inFlight, s.Passing owed inFlight) := by
  have hstage := h.stage
  rw [Relay.Stage] at hstage
  split at hstage
  · exact .inl hstage.1
  · exact .inl hstage.1
  · exact .inl hstage.1
  · exact .inr ⟨hstage.1, _, _, hstage.2.2⟩
  · exact .inr ⟨hstage.1, _, _, hstage.2⟩
  · exact .inr ⟨hstage.1, _, _, hstage.2⟩
  · exact .inr ⟨hstage.1, _, _, hstage.2.2⟩
  · exact hstage

/-- What a socket has taken, in every state. -/
theorem RelayInv.written_front (h : RelayInv cfg s) (side : Side) :
    s.written side <+: s.opening side ++ s.stream side.other := by
  have hread := List.take_prefix (s.readSize side.other) (s.sent side.other)
  have hpayload : s.payload side.other <+: s.stream side.other := hread.drop _
  rcases h.fresh_or_opened with hfresh | ⟨-, owed, inFlight, hpassing⟩
  · rw [hfresh.written side]
    exact List.nil_prefix
  · have hwritten : s.written side <+: s.opening side ++ s.payload side.other :=
      ⟨owed side, hpassing.passed side⟩
    exact hwritten.trans ((List.prefix_append_right_inj _).mpr hpayload)

/-- A socket has taken something only on an open connection. -/
theorem RelayInv.opened_of_written (h : RelayInv cfg s) {side : Side} (hne : s.written side ≠ []) :
    s.Opened cfg := by
  rcases h.fresh_or_opened with hfresh | ⟨hopened, -⟩
  · exact absurd (hfresh.written side) hne
  · exact hopened

end Invariant

end PhxSql.Proxy
