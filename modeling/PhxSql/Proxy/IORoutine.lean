import PhxSql.Lib.Bytes
import PhxSql.Lib.Transition
import PhxSql.Proxy.GroupStatusCache

/-!
# A connection of the proxy

An `IORoutine` serves one client: its router chooses the destination once, when the client connects,
and its channel decides at every buffer of the client whether it may be passed on. The master port
and the slave port have a router and a channel each. Between two buffers the cached master can
change.

The state is the cache, the clock and the connection of one routine. What `connect` and `write` do
is part of the actions. `inet_pton` and the request filter plugin are parameters.
-/

set_option autoImplicit false

namespace PhxSql.Proxy

open PhxSql.Proto PhxSql.Client PhxSql.Lib

/-- `127.0.0.1`. -/
def loopback : Bytes :=
  [49, 50, 55, 46, 48, 46, 48, 46, 49]

/-! ## Routers -/

/-- `MasterIORouter::GetDestEndpoint` and `SlaveIORouter::GetDestEndpoint`: address and port. -/
def getDestEndpoint (cfg : ProxyConfig) (now : Nat) (c : GroupStatusCache) (kind : PortKind) :
    Option (Bytes × Nat) :=
  let worker := cfg.workerConfig kind
  let proxyPort := if cfg.proxyProtocol then worker.proxyPort else worker.port
  match c.getMaster cfg now with
  | none => none
  | some masterIp =>
    match kind with
    | .master =>
      if masterIp = worker.listenIp then some (loopback, cfg.mysqlPort)
      else some (masterIp, proxyPort)
    | .slave =>
      if masterIp = worker.listenIp ∧ cfg.masterEnableReadPort = false then
        (c.getSlave masterIp).map fun slave => (slave, proxyPort)
      else some (loopback, cfg.mysqlPort)

/-- The end of a connection to an address as `getpeername` tells it: `SetAddr` takes four texts for
any address of this machine, and `inet_pton` takes only texts that `inet_ntop` gives back. -/
def peerAddress (inetPton : Bytes → Bool) (ip : Bytes) : Option Bytes :=
  if ip ∈ [[], [48], [48, 46, 48, 46, 48, 46, 48], [42]] then some loopback
  else if inetPton ip then some ip
  else none

/-- `IORouter::ConnectDest`; `connected` says whether the connection comes about. -/
def connectDest (cfg : ProxyConfig) (now : Nat) (c : GroupStatusCache) (kind : PortKind)
    (connected : Bool) : Option (Bytes × Nat) :=
  let dest :=
    if cfg.onlyProxy then some (loopback, cfg.mysqlPort) else getDestEndpoint cfg now c kind
  if connected then dest else none

/-! ## Channels -/

structure IOChannel where
  connectDest : Bytes
  connectPort : Nat
  isAuthed : Bool := false
  dbName : Bytes := []

/-- `DecodedLengthBinary`: the length and the size of its field, none where the field is cut off or
the length is that of the error value. Bytes behind the buffer are taken for 0. -/
def decodedLengthBinary (bs : Bytes) : Option (Nat × Nat) :=
  let field := fun size : Nat =>
    if bs.length < size + 1 then none
    else
      let len := leValue ((bs.drop 1).take size)
      if len = 2 ^ 64 - 1 then none else some (len, size + 1)
  match bs.headD 0 with
  | 251 => some (0, 1)
  | 252 => field 2
  | 253 => field 3
  | 254 => field 8
  | b => some (b.toNat, 1)

/-- `strlen` at an offset of the buffer. Bytes behind the buffer are taken for 0. -/
def strlenAt (buf : Bytes) (offset : Nat) : Nat :=
  ((buf.drop offset).takeWhile fun b => decide (b ≠ 0)).length

/-- The flag `CLIENT_CONNECT_WITH_DB` of the client. -/
def connectsWithDB (buf : Bytes) : Bool :=
  decide (leValue ((buf.drop 4).take 4) / 8 % 2 = 1)

/-- Where the authorisation data begins, behind the user name. -/
def authOffset (buf : Bytes) : Nat :=
  36 + strlenAt buf 36 + 1

/-- `IOChannel::GetDBNameFromAuthBuf`: after the user name and the authorisation data. -/
def getDBNameFromAuthBuf (buf dbName : Bytes) : Bytes :=
  if buf.length < 36 then dbName
  else if connectsWithDB buf = false then dbName
  else
    match decodedLengthBinary (buf.drop (authOffset buf)) with
    | none => dbName
    | some (len, size) =>
      -- The length has 64 bits, so the sum can lead the pointer back into the buffer.
      let offset := (authOffset buf + (size + len)) % 2 ^ 64
      if strlenAt buf offset ≠ 0 then (buf.drop offset).take (strlenAt buf offset) else dbName

/-- `IOChannel::GetDBNameFromReqBuf` for a `COM_INIT_DB`; none where the length is 0, for which the
string constructor throws. -/
def getDBNameFromReqBuf (buf dbName : Bytes) : Option Bytes :=
  if buf.length ≤ 5 ∨ buf.getD 4 0 ≠ 2 then some dbName
  else
    let len := leValue (buf.take 3)
    if len = 0 then none else some ((buf.drop 5).take (len - 1))

/-- `MasterIOChannel::CanExecute` and `SlaveIOChannel::CanExecute`; `filter` is the plugin's
`CanExecute`, which is asked only on connections to MySQL itself. -/
def canExecute (cfg : ProxyConfig) (filter : Bool → Bytes → Bytes → Bool) (now : Nat)
    (c : GroupStatusCache) (kind : PortKind) (ch : IOChannel) (buf : Bytes) : Bool :=
  let passes := fun isMaster : Bool =>
    ch.connectPort ≠ cfg.mysqlPort || filter isMaster ch.dbName buf
  match c.getMaster cfg now with
  | none => false
  | some masterIp =>
    match kind with
    | .master =>
      (if ch.connectDest = loopback then decide (masterIp = (cfg.workerConfig .master).listenIp)
        else decide (masterIp = ch.connectDest)) && passes true
    | .slave =>
      if cfg.masterEnableReadPort = false ∧ masterIp = ch.connectDest then false else passes false

/-- The channel with the database a buffer of the client names, none where reading it throws. -/
def namedChannel (ch : IOChannel) (buf : Bytes) : Option IOChannel :=
  if ch.isAuthed then (getDBNameFromReqBuf buf ch.dbName).map fun db => { ch with dbName := db }
  else some { ch with dbName := getDBNameFromAuthBuf buf ch.dbName, isAuthed := true }

/-- What `IOChannel::TransMsgDirect` does with a buffer of the client before it writes it: none
where the buffer is not passed on. -/
def checkClientBuffer (cfg : ProxyConfig) (filter : Bool → Bytes → Bytes → Bool) (now : Nat)
    (c : GroupStatusCache) (kind : PortKind) (ch : IOChannel) (buf : Bytes) : Option IOChannel :=
  (namedChannel ch buf).bind fun named =>
    if canExecute cfg filter now c kind named buf then some named else none

/-! ## The routine -/

/-- A connection of the routine. `openedWith` is the cached master when it was opened; no decision
depends on it. -/
structure Connection where
  kind : PortKind
  destIp : Bytes
  channel : IOChannel
  transferred : Nat := 0
  openedWith : Option Bytes

structure ProxyState where
  cache : GroupStatusCache := {}
  now : Nat := 0
  connection : Option Connection := none

inductive ProxyAction
  /-- The clock shows another time. -/
  | clock (now : Nat)
  /-- The thread of the cache has heard of a master or of members. -/
  | updateMasterStatus (answer global : Option GlobalMaster)
  | updateMembership (answer : Option (List Bytes))
  /-- Another routine has marked a failure. -/
  | markFailure (ip : Bytes) (time : Nat)
  /-- A client connects to one of the ports. -/
  | connect (kind : PortKind) (connected : Bool)
  /-- A buffer is read from the client; `written` says whether all of it could be written. -/
  | clientBuffer (buf : Bytes) (written : Bool) (time : Nat)
  /-- A buffer from MySQL is written to the client. -/
  | serverBuffer (size : Nat)
  /-- One of the ends is closed. -/
  | close (time : Nat)

/-- The end of `IORoutine::run`: `SlaveIORouter::MarkFailure` if nothing was transferred. -/
def endConnection (s : ProxyState) (conn : Connection) (time : Nat) : ProxyState :=
  { s with
    cache :=
      if conn.transferred = 0 ∧ conn.kind = .slave ∧ conn.destIp ≠ [] ∧ conn.destIp ≠ loopback then
        s.cache.markFailure conn.destIp time
      else s.cache
    connection := none }

def proxyStep (cfg : ProxyConfig) (inetPton : Bytes → Bool) (filter : Bool → Bytes → Bytes → Bool)
    (s : ProxyState) : ProxyAction → Option ProxyState
  | .clock now => some { s with now := now }
  | .updateMasterStatus answer global =>
    some { s with cache := s.cache.updateMasterStatus cfg s.now answer global }
  | .updateMembership answer => some { s with cache := s.cache.updateMembership answer }
  | .markFailure ip time => some { s with cache := s.cache.markFailure ip time }
  | .connect kind connected =>
    match s.connection with
    | some _ => none
    | none =>
      match connectDest cfg s.now s.cache kind connected with
      | none => some s
      | some (destIp, destPort) =>
        match peerAddress inetPton destIp with
        | none => some s
        | some peer =>
          some { s with
            connection := some
              { kind := kind
                destIp := destIp
                channel := { connectDest := peer, connectPort := destPort }
                openedWith := s.cache.getMaster cfg s.now } }
  | .clientBuffer buf written time =>
    s.connection.map fun conn =>
      match checkClientBuffer cfg filter s.now s.cache conn.kind conn.channel buf with
      | none => endConnection s conn time
      | some channel =>
        if written then
          { s with
            connection := some
              { conn with channel := channel, transferred := conn.transferred + buf.length } }
        else endConnection s conn time
  | .serverBuffer size =>
    s.connection.map fun conn =>
      { s with connection := some { conn with transferred := conn.transferred + size } }
  | .close time => s.connection.map fun conn => endConnection s conn time

def proxySystem (cfg : ProxyConfig) (inetPton : Bytes → Bool)
    (filter : Bool → Bytes → Bytes → Bool) : Transition.System ProxyState ProxyAction where
  init := {}
  step := proxyStep cfg inetPton filter

end PhxSql.Proxy
