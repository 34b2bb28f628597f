import PhxSql.Proxy.HeaderExchange
import PhxSql.Proxy.IORoutine
import PhxSql.Proxy.WriteToDest

/-!
# One connection through a proxy

`IORoutine::run` serves a client in four parts. `ProcessProxyHeader` takes the client's addresses
from a PROXY header if the client is the proxy of another member, `ConnectDest` opens a connection to
the destination, `SendProxyHeader` announces the client there, and `TransMsg` passes on what both
ends send, buffer by buffer, until one of them ends or a buffer of the client is refused.

A connection is a transition system over what the sockets do: bytes arrive at any time, reads are
short, writes are partial, and `co_poll` reports what it likes. The caches that the routine asks are
those of the moment at which it asks.
-/

set_option autoImplicit false

namespace PhxSql.Proxy

open PhxSql.Proto PhxSql.Lib

/-! ## State -/

/-- The two ends of a connection. -/
inductive Side
  | client
  | server
  deriving DecidableEq, Repr

def Side.other : Side → Side
  | .client => .server
  | .server => .client

@[simp] theorem Side.other_other (side : Side) : side.other.other = side := by
  cases side <;> rfl

/-- The events of a socket that is read. -/
structure ReadEvents where
  pollin : Bool := false
  pollhup : Bool := false
  pollerr : Bool := false
  deriving DecidableEq, Repr

/-- What the routine is doing. -/
inductive RelayPhase
  /-- `ProcessProxyHeader` before `IsProxyHeaderNeed`. -/
  | accepted
  /-- `ProcessProxyHeader` waits for a header. -/
  | peeking
  | connecting
  | sendingHeader (ch : IOChannel)
  /-- The head of the loop of `TransMsg`. -/
  | polling (ch : IOChannel)
  /-- `TransMsgDirect` from this end. -/
  | reading (ch : IOChannel) (source : Side) (events : Side → ReadEvents)
  /-- `WriteToDest` for a buffer that was read from this end. -/
  | writing (ch : IOChannel) (source : Side) (events : Side → ReadEvents) (buf : Bytes)
      (w : WriteToDest buf)
  | ended

/-- A connection: the bytes that have arrived from its ends, how many of them were read, what the
sockets of the two ends have taken, the addresses of the handler, the size of the header that was
read off, the header for the server, and `byte_size_tot`. -/
structure Relay where
  sent : Side → Bytes := fun _ => []
  readSize : Side → Nat := fun _ => 0
  written : Side → Bytes := fun _ => []
  addrs : ProxyAddrs
  stripped : Nat := 0
  header : Bytes := []
  byteSizeTot : Nat := 0
  phase : RelayPhase := .accepted

/-- What does not change while a client is served. `version` is the setting `ProxyProtocol`, whose
use as a truth value is the one of the routers, and `own` are the ends of the connection as
`getpeername` and `getsockname` tell them. -/
structure RelayConfig where
  proxy : ProxyConfig
  version : Nat
  proxyProtocol_eq : proxy.proxyProtocol = decide (version ≠ 0)
  kind : PortKind
  inet : Inet
  filter : Bool → Bytes → Bytes → Bool
  own : ProxyAddrs

def RelayConfig.worker (cfg : RelayConfig) : WorkerConfig :=
  cfg.proxy.workerConfig cfg.kind

/-- The connection came in at the port for other proxies. -/
def RelayConfig.AtProxyPort (cfg : RelayConfig) : Prop :=
  (sockAddrToIPPort cfg.inet cfg.own.dst).map Prod.snd = some cfg.worker.proxyPort

instance (cfg : RelayConfig) : Decidable cfg.AtProxyPort :=
  inferInstanceAs (Decidable (_ = _))

namespace Relay

def arrive (s : Relay) (side : Side) (bytes : Bytes) : Relay :=
  { s with sent := Function.update s.sent side (s.sent side ++ bytes) }

def consume (s : Relay) (side : Side) (size : Nat) : Relay :=
  { s with readSize := Function.update s.readSize side (s.readSize side + size) }

def deliver (s : Relay) (side : Side) (bytes : Bytes) : Relay :=
  { s with written := Function.update s.written side (s.written side ++ bytes) }

/-- What can be read from an end. -/
def unread (s : Relay) (side : Side) : Bytes :=
  (s.sent side).drop (s.readSize side)

end Relay

/-! ## Steps -/

/-- `ProxyProtocolHandler::IsProxyHeaderNeed`; none where the connection is rejected. -/
def isProxyHeaderNeed (inet : Inet) (worker : WorkerConfig) (c : GroupStatusCache)
    (addrs : ProxyAddrs) : Option Bool :=
  match sockAddrToIPPort inet addrs.src, sockAddrToIPPort inet addrs.dst with
  | some (srcIp, _), some (_, dstPort) =>
    if dstPort ≠ worker.proxyPort then some false
    else if c.isMember srcIp then some true
    else none
  | _, _ => none

inductive RelayAction
  /-- Bytes arrive from an end. -/
  | arrive (side : Side) (bytes : Bytes)
  /-- `GetAddrFromFD`, which fails for none, and `IsProxyHeaderNeed`. -/
  | isProxyHeaderNeed (cache : Option GroupStatusCache)
  /-- The rest of `ProcessProxyHeader`. There is nothing to peek at for none, else the buffer holds
  these bytes behind the ones peeked at; `failed` says that the header cannot be read off. -/
  | processProxyHeader (stale : Option Bytes) (failed : Bool)
  | connectDest (now : Nat) (cache : GroupStatusCache) (connected : Bool)
  /-- One round of the loop of `SendProxyHeader`. -/
  | sendProxyHeader (a : Attempt)
  /-- `co_poll` in `TransMsg`, which fails for none, as `GetPeerName` before the loop can. -/
  | poll (events : Option (Side → ReadEvents))
  /-- `TransMsgDirect` up to its write. So many bytes can be read; `read` fails for none. -/
  | read (now : Nat) (cache : GroupStatusCache) (size : Option Nat)
  /-- One round of the loop of `WriteToDest`. -/
  | write (a : Attempt)

/-- What follows `TransMsgDirect` from an end. -/
def RelayPhase.afterDirect (ch : IOChannel) (events : Side → ReadEvents) : Side → RelayPhase
  | .client => .reading ch .server events
  | .server => .polling ch

/-- `ProcessProxyHeader` with what it peeked at; none where a missing token is read. -/
def Relay.processProxyHeader (cfg : RelayConfig) (s : Relay) (stale : Bytes) (failed : Bool) :
    Option Relay :=
  let arrived := s.unread .client
  (parseProxyHeader cfg.inet (arrived.take 108 ++ stale) (min 108 arrived.length) s.addrs).map
    fun (hdrSize, addrs) =>
      if hdrSize < 0 ∨ (0 < hdrSize ∧ failed) then { s with addrs := addrs, phase := .ended }
      else
        { s.consume .client hdrSize.toNat with
          addrs := addrs
          stripped := hdrSize.toNat
          phase := .connecting }

/-- `ConnectDest`, with the ends of the connection as `GetPeerName` will tell them. -/
def connectedChannel (cfg : RelayConfig) (now : Nat) (cache : GroupStatusCache) (connected : Bool) :
    Option IOChannel :=
  (connectDest cfg.proxy now cache cfg.kind connected).bind fun (ip, port) =>
    (peerAddress (fun text => (cfg.inet.v4.pton text).isSome) ip).map fun peer =>
      { connectDest := peer, connectPort := port }

/-- `ConnectDest` and the header of `SendProxyHeader`. -/
def Relay.connectDest (cfg : RelayConfig) (s : Relay) (now : Nat) (cache : GroupStatusCache)
    (connected : Bool) : Relay :=
  match connectedChannel cfg now cache connected, makeProxyHeader cfg.inet cfg.version s.addrs with
  | some ch, some header =>
    { s with
      header := header
      -- Version 0 has no header to send.
      phase := if cfg.version = 0 then .polling ch else .sendingHeader ch }
  | _, _ => { s with phase := .ended }

def Relay.sendProxyHeader (s : Relay) (ch : IOChannel) (a : Attempt) : Relay :=
  let (ret, taken) := routineWriteWithTimeout s.header a
  { s.deliver .server taken with
    phase :=
      if ret = 0 then .sendingHeader ch
      else if ret = s.header.length then .polling ch
      -- A header of which only a part was written is not completed.
      else .ended }

/-- `TransMsgDirect` with a buffer that was read, up to its write. -/
def Relay.takeBuffer (cfg : RelayConfig) (s : Relay) (ch : IOChannel) (source : Side)
    (events : Side → ReadEvents) (buf : Bytes) (now : Nat) (cache : GroupStatusCache) : Relay :=
  let passed :=
    match source with
    | .client => checkClientBuffer cfg.proxy cfg.filter now cache cfg.kind ch buf
    | .server => some ch
  { s.consume source buf.length with
    phase :=
      match passed with
      | some ch => .writing ch source events buf (.loop buf 0 [])
      | none => .ended }

def Relay.transMsgDirect (cfg : RelayConfig) (s : Relay) (ch : IOChannel) (source : Side)
    (events : Side → ReadEvents) (now : Nat) (cache : GroupStatusCache) (size : Option Nat) : Relay :=
  if (events source).pollin then
    -- The buffer has room for 16384 bytes; at the end of the connection there are none.
    let buf := (s.unread source).take (min (size.getD 0) 16384)
    if buf = [] then { s with phase := .ended }
    else s.takeBuffer cfg ch source events buf now cache
  else if (events source).pollhup then { s with phase := .afterDirect ch events source }
  else if (events source).pollerr then { s with phase := .ended }
  else { s with phase := .afterDirect ch events source }

/-- One round of `WriteToDest` and, after the last, the rest of `TransMsgDirect`. -/
def Relay.writeToDest (s : Relay) (ch : IOChannel) (source : Side) (events : Side → ReadEvents)
    {buf : Bytes} (w : WriteToDest buf) (a : Attempt) : Relay :=
  let s := s.deliver source.other (routineWriteWithTimeout (buf.drop w.totalWritten) a).2
  match (w.iterate a).returned with
  | none => { s with phase := .writing ch source events buf (w.iterate a) }
  | some written =>
    if written < 0 then { s with phase := .ended }
    else
      { s with
        byteSizeTot := s.byteSizeTot + written.toNat
        phase := .afterDirect ch events source }

def relayStep (cfg : RelayConfig) (s : Relay) : RelayAction → Option Relay
  | .arrive side bytes => some (s.arrive side bytes)
  | .isProxyHeaderNeed cache =>
    match s.phase with
    | .accepted =>
      match cache.bind fun c => isProxyHeaderNeed cfg.inet cfg.worker c s.addrs with
      | some true => some { s with phase := .peeking }
      | some false => some { s with phase := .connecting }
      | none => some { s with phase := .ended }
    | _ => none
  | .processProxyHeader stale failed =>
    match s.phase with
    | .peeking =>
      match stale with
      | some stale => s.processProxyHeader cfg stale failed
      | none => some { s with phase := .ended }
    | _ => none
  | .connectDest now cache connected =>
    match s.phase with
    | .connecting => some (s.connectDest cfg now cache connected)
    | _ => none
  | .sendProxyHeader a =>
    match s.phase with
    | .sendingHeader ch => some (s.sendProxyHeader ch a)
    | _ => none
  | .poll events =>
    match s.phase with
    | .polling ch =>
      match events with
      | some events => some { s with phase := .reading ch .client events }
      | none => some { s with phase := .ended }
    | _ => none
  | .read now cache size =>
    match s.phase with
    | .reading ch source events => some (s.transMsgDirect cfg ch source events now cache size)
    | _ => none
  | .write a =>
    match s.phase with
    | .writing ch source events _ w => some (s.writeToDest ch source events w a)
    | _ => none

/-- The events that are reported. -/
def PollOutcome.events : PollOutcome → List PollEvents
  | .ready revents => [revents]
  | _ => []

theorem Attempt.hangsUp_events_iff (a : Attempt) :
    (a.first.room.getD 0 = 0 ∧ a.first.errno ≠ .other ∧
      ∃ revents ∈ a.poll.events, revents.pollout = false ∧
        (revents.pollhup = true ∨ revents.pollerr = true)) ↔ a.HangsUp := by
  unfold HangsUp
  cases hpoll : a.poll <;> simp [PollOutcome.events]

/-- No write of `WriteToDest` finds its socket not ready and is told `POLLHUP` or `POLLERR` without
`POLLOUT`. -/
def KeepsBytes : RelayAction → Prop
  | .write a => ¬a.HangsUp
  | _ => True

instance (a : Attempt) : Decidable a.HangsUp :=
  decidable_of_iff
    (a.first.room.getD 0 = 0 ∧ a.first.errno ≠ .other ∧
      ∃ revents ∈ a.poll.events, revents.pollout = false ∧
        (revents.pollhup = true ∨ revents.pollerr = true))
    a.hangsUp_events_iff

instance : DecidablePred KeepsBytes
  | .write a => inferInstanceAs (Decidable (¬a.HangsUp))
  | .arrive _ _ => isTrue trivial
  | .isProxyHeaderNeed _ => isTrue trivial
  | .processProxyHeader _ _ => isTrue trivial
  | .connectDest _ _ _ => isTrue trivial
  | .sendProxyHeader _ => isTrue trivial
  | .poll _ => isTrue trivial
  | .read _ _ _ => isTrue trivial

end PhxSql.Proxy
