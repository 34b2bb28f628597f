import PhxSql.Proxy.RelayExact

/-!
# A connection through several proxies

A proxy that does not stand on the master passes its client on to the proxy port of the one that it
takes for the master, and that one may have heard of another master still. The connections of all
proxies on the way form a chain: what one proxy has written to its server is what arrives at the next
from its client, in pieces and with delay, and the same backwards.

`chain_transparent` says that such a chain looks like one proxy: the server at its end has the
header of the last proxy and a first part of what the client at its beginning sent, the client has a
first part of what the server sent, and the last header names the client of the first proxy, not any
of the proxies on the way. The header of every hop is taken off again, whole, before anything else is
passed on.
-/

set_option autoImplicit false

namespace PhxSql.Proxy

open PhxSql.Proto PhxSql.Lib

/-! ## The chain -/

/-- The proxies of a chain with so many hops between them. All but the last announce their client,
and all but the first are reached at their proxy port. -/
structure ChainConfig where
  hops : Nat
  node : Nat → RelayConfig
  inet : Inet
  inet_eq : ∀ i ≤ hops, (node i).inet = inet
  announces : ∀ i < hops, (node i).version ≠ 0
  atProxyPort : ∀ i < hops, (node (i + 1)).AtProxyPort

inductive ChainAction
  /-- One of the proxies takes a step. -/
  | relay (i : Nat) (a : RelayAction)
  /-- Bytes of a proxy arrive at the next one, or at the one before it. -/
  | forward (i : Nat) (size : Nat)
  | back (i : Nat) (size : Nat)

/-- Only the client of the first proxy and the server of the last are outside of the chain. -/
def Outside (hops i : Nat) : RelayAction → Prop
  | .arrive .client _ => i = 0
  | .arrive .server _ => i = hops
  | _ => True

instance (hops i : Nat) : DecidablePred (Outside hops i)
  | .arrive .client _ => inferInstanceAs (Decidable (i = 0))
  | .arrive .server _ => inferInstanceAs (Decidable (i = hops))
  | .isProxyHeaderNeed _ => isTrue trivial
  | .processProxyHeader _ _ => isTrue trivial
  | .connectDest _ _ _ => isTrue trivial
  | .sendProxyHeader _ => isTrue trivial
  | .poll _ => isTrue trivial
  | .read _ _ _ => isTrue trivial
  | .write _ => isTrue trivial

/-- What the socket of one end has taken and the other has not yet. -/
def inTransit (taken arrived : Bytes) (size : Nat) : Bytes :=
  (taken.drop arrived.length).take size

def chainStep (cfg : ChainConfig) (c : Nat → Relay) : ChainAction → Option (Nat → Relay)
  | .relay i a =>
    if i ≤ cfg.hops ∧ Outside cfg.hops i a then
      (relayStep (cfg.node i) (c i) a).map (Function.update c i)
    else none
  | .forward i size =>
    if i < cfg.hops then
      some (Function.update c (i + 1) ((c (i + 1)).arrive .client
        (inTransit ((c i).written .server) ((c (i + 1)).sent .client) size)))
    else none
  | .back i size =>
    if i < cfg.hops then
      some (Function.update c i ((c i).arrive .server
        (inTransit ((c (i + 1)).written .client) ((c i).sent .server) size)))
    else none

def ChainKeepsBytes : ChainAction → Prop
  | .relay _ a => KeepsBytes a
  | _ => True

instance : DecidablePred ChainKeepsBytes
  | .relay _ a => inferInstanceAs (Decidable (KeepsBytes a))
  | .forward _ _ => isTrue trivial
  | .back _ _ => isTrue trivial

/-! ## Neighbours -/

/-- What has arrived from a neighbour is a first part of what it has written. -/
structure Linked (a b : Relay) : Prop where
  forward : b.sent .client <+: a.written .server
  back : a.sent .server <+: b.written .client

theorem append_inTransit_front {taken arrived : Bytes} (h : arrived <+: taken) (size : Nat) :
    arrived ++ inTransit taken arrived size <+: taken := by
  obtain ⟨rest, rfl⟩ := h
  rw [inTransit, List.drop_left]
  have hfront := List.take_prefix size rest
  exact (List.prefix_append_right_inj arrived).mpr hfront

/-- What a socket has taken stays taken, and nothing arrives but by an arrival. -/
structure Grows (s s' : Relay) : Prop where
  written : ∀ side, s.written side <+: s'.written side
  sent : s'.sent = s.sent

theorem written_prefix_deliver (s : Relay) (side e : Side) (bytes : Bytes) :
    s.written e <+: (s.deliver side bytes).written e := by
  by_cases he : e = side
  · subst he
    simp only [Relay.deliver, Function.update_self]
    exact List.prefix_append _ _
  · simp only [Relay.deliver, Function.update_of_ne he]
    exact List.prefix_rfl

theorem grows_of_step {cfg : RelayConfig} {s s' : Relay} {a : RelayAction}
    (hs : relayStep cfg s a = some s') (harrive : ∀ side bytes, a ≠ .arrive side bytes) :
    Grows s s' := by
  have hsame : ∀ {t : Relay}, t.written = s.written → t.sent = s.sent → Grows s t := by
    intro t hwritten hsent
    refine ⟨fun side => ?_, hsent⟩
    rw [hwritten]
  cases a with
  | arrive side bytes => exact absurd rfl (harrive side bytes)
  | isProxyHeaderNeed cache =>
    cases hphase : s.phase <;> simp only [relayStep, hphase, reduceCtorEq] at hs
    split at hs <;> cases hs <;> exact hsame rfl rfl
  | processProxyHeader stale failed =>
    cases hphase : s.phase <;> simp only [relayStep, hphase, reduceCtorEq] at hs
    cases stale with
    | none => cases hs; exact hsame rfl rfl
    | some stale =>
      simp only [Relay.processProxyHeader, Option.map_eq_some_iff] at hs
      obtain ⟨⟨hdrSize, addrs⟩, -, rfl⟩ := hs
      split <;> exact hsame rfl rfl
  | connectDest now cache connected =>
    cases hphase : s.phase <;> simp only [relayStep, hphase, reduceCtorEq] at hs
    cases hs
    unfold Relay.connectDest
    split <;> exact hsame rfl rfl
  | sendProxyHeader attempt =>
    cases hphase : s.phase <;> simp only [relayStep, hphase, reduceCtorEq] at hs
    cases hs
    exact ⟨fun side => written_prefix_deliver s .server side _, rfl⟩
  | poll events =>
    cases hphase : s.phase <;> simp only [relayStep, hphase, reduceCtorEq] at hs
    cases events <;> cases hs <;> exact hsame rfl rfl
  | read now cache size =>
    cases hphase : s.phase <;> simp only [relayStep, hphase, reduceCtorEq] at hs
    cases hs
    unfold Relay.transMsgDirect
    split
    · simp only []
      split <;> exact hsame rfl rfl
    · split
      · exact hsame rfl rfl
      · split <;> exact hsame rfl rfl
  | write attempt =>
    cases hphase : s.phase <;> simp only [relayStep, hphase, reduceCtorEq] at hs
    cases hs
    unfold Relay.writeToDest
    split
    · exact ⟨fun side => written_prefix_deliver s _ side _, rfl⟩
    · split <;> exact ⟨fun side => written_prefix_deliver s _ side _, rfl⟩

section Hop

variable {first second : RelayConfig} {a b : Relay}

/-- Without a byte there is no header. -/
theorem parseProxyHeader_nil (inet : Inet) (stale : Bytes) (own : ProxyAddrs) :
    parseProxyHeader inet stale 0 own = some (-171, own) := by
  have hv2 : ¬isV2 stale 0 := fun h => absurd h.1 (by decide)
  have hv1 : ¬isV1 stale 0 := fun h => absurd h.1 (by decide)
  rw [parseProxyHeader, if_neg hv2, if_neg hv1]

/-- A proxy whose connection to the server is open has read off the whole header of the one before
it, and what it has to pass on is what that one has. -/
theorem hop_forward (hfirst : RelayInv first a) (hlink : Linked a b)
    (hinet : second.inet = first.inet) (hversion : first.version ≠ 0) (hport : second.AtProxyPort)
    (hopened : b.Opened second) :
    a.Opened first ∧ b.stripped = a.header.length ∧ b.stream .client <+: a.stream .client ∧
      if OneFamily a.addrs then
        SameEndpoint b.addrs.src a.addrs.src ∧ SameEndpoint b.addrs.dst a.addrs.dst
      else b.addrs = second.own := by
  have hannounced := hopened.announced
  rw [Relay.Announced, if_pos hport] at hannounced
  obtain ⟨arrived, stale, harrived, hparse⟩ := hannounced
  have hwritten : a.written .server ≠ [] := by
    intro hnone
    have hnil : arrived = [] := List.prefix_nil.mp (hnone ▸ harrived.trans hlink.forward)
    subst hnil
    rw [List.length_nil, Nat.min_zero, parseProxyHeader_nil] at hparse
    cases hparse
  have hopenedFirst := hfirst.opened_of_written hwritten
  have hsent : b.sent .client <+: a.header ++ a.stream .client :=
    hlink.forward.trans (hfirst.written_front .server)
  rw [hinet] at hparse
  obtain ⟨-, hsize, htold⟩ :=
    accepted_header hversion hopenedFirst.header (harrived.trans hsent) hparse
  refine ⟨hopenedFirst, hsize, ?_, htold⟩
  have hdrop := hsent.drop a.header.length
  rw [List.drop_left, ← hsize] at hdrop
  exact hdrop

/-- What the client side of a proxy has is what the next one has from its server. -/
theorem hop_back (hsecond : RelayInv second b) (hlink : Linked a b) :
    a.sent .server <+: b.sent .server :=
  hlink.back.trans (hsecond.written_front .client)

end Hop

/-! ## The whole chain -/

/-- Every proxy on its own, and every two neighbours. -/
structure ChainInv (cfg : ChainConfig) (c : Nat → Relay) : Prop where
  relay : ∀ i ≤ cfg.hops, RelayInv (cfg.node i) (c i)
  linked : ∀ i < cfg.hops, Linked (c i) (c (i + 1))

section Chain

variable {cfg : ChainConfig} {c : Nat → Relay}

/-- A proxy is replaced by one that still fits its neighbours. -/
theorem ChainInv.update (h : ChainInv cfg c) {i : Nat} {s : Relay} (hs : RelayInv (cfg.node i) s)
    (hwritten : ∀ side, (c i).written side <+: s.written side)
    (hclient : ∀ j < cfg.hops, j + 1 = i → s.sent .client <+: (c j).written .server)
    (hserver : i < cfg.hops → s.sent .server <+: (c (i + 1)).written .client) :
    ChainInv cfg (Function.update c i s) := by
  constructor
  · intro j hj
    by_cases hji : j = i
    · subst hji
      rwa [Function.update_self]
    · rw [Function.update_of_ne hji]
      exact h.relay j hj
  · intro j hj
    have hlink := h.linked j hj
    by_cases hji : j = i
    · subst hji
      rw [Function.update_self, Function.update_of_ne (by omega)]
      exact ⟨hlink.forward.trans (hwritten .server), hserver hj⟩
    · rw [Function.update_of_ne hji]
      by_cases hnext : j + 1 = i
      · subst hnext
        rw [Function.update_self]
        exact ⟨hclient j hj rfl, hlink.back.trans (hwritten .client)⟩
      · rw [Function.update_of_ne hnext]
        exact hlink

/-- Bytes arrive at a proxy of the chain. -/
theorem ChainInv.arrive (h : ChainInv cfg c) {i : Nat} (hi : i ≤ cfg.hops) {side : Side}
    {bytes : Bytes}
    (hclient : side = .client → ∀ j < cfg.hops, j + 1 = i →
      (c i).sent .client ++ bytes <+: (c j).written .server)
    (hserver : side = .server → i < cfg.hops →
      (c i).sent .server ++ bytes <+: (c (i + 1)).written .client) :
    ChainInv cfg (Function.update c i ((c i).arrive side bytes)) := by
  apply h.update ((h.relay i hi).arrive side bytes) (fun _ => List.prefix_rfl)
  · intro j hj hji
    cases side with
    | client => exact hclient rfl j hj hji
    | server =>
      subst hji
      exact (h.linked j hj).forward
  · intro hlt
    cases side with
    | client => exact (h.linked i hlt).back
    | server => exact hserver rfl hlt

theorem ChainInv.step (h : ChainInv cfg c) {a : ChainAction} (hkeeps : ChainKeepsBytes a)
    {c' : Nat → Relay} (hs : chainStep cfg c a = some c') : ChainInv cfg c' := by
  cases a with
  | relay i a =>
    simp only [chainStep, Option.ite_none_right_eq_some, Option.map_eq_some_iff] at hs
    obtain ⟨⟨hi, houtside⟩, s, hstep, rfl⟩ := hs
    by_cases harrive : ∃ side bytes, a = .arrive side bytes
    · -- Bytes from outside arrive only at the two ends of the chain.
      obtain ⟨side, bytes, rfl⟩ := harrive
      cases hstep
      apply h.arrive hi
      · rintro rfl j - hji
        have hfirst : i = 0 := houtside
        omega
      · rintro rfl hlt
        have hlast : i = cfg.hops := houtside
        omega
    · have hgrows := grows_of_step hstep fun side bytes heq => harrive ⟨side, bytes, heq⟩
      apply h.update ((h.relay i hi).step hkeeps hstep) hgrows.written
      · rintro j hj rfl
        rw [hgrows.sent]
        exact (h.linked j hj).forward
      · intro hlt
        rw [hgrows.sent]
        exact (h.linked i hlt).back
  | forward i size =>
    simp only [chainStep, Option.ite_none_right_eq_some, Option.some.injEq] at hs
    obtain ⟨hi, rfl⟩ := hs
    apply h.arrive hi
    · intro _ j _ hji
      have hj : j = i := by omega
      subst hj
      exact append_inTransit_front (h.linked j hi).forward size
    · exact nofun
  | back i size =>
    simp only [chainStep, Option.ite_none_right_eq_some, Option.some.injEq] at hs
    obtain ⟨hi, rfl⟩ := hs
    apply h.arrive (Nat.le_of_lt hi)
    · exact nofun
    · exact fun _ hlt => append_inTransit_front (h.linked i hlt).back size

theorem SameEndpoint.trans {x y z : SockAddr} (hxy : SameEndpoint x y) (hyz : SameEndpoint y z) :
    SameEndpoint x z := by
  obtain ⟨hfam, hport, h4, h6⟩ := hxy
  obtain ⟨hfam', hport', h4', h6'⟩ := hyz
  refine ⟨hfam.trans hfam', hport.trans hport', fun hx => ?_, fun hx => ?_⟩
  · exact (h4 hx).trans (h4' (hfam ▸ hx))
  · exact (h6 hx).trans (h6' (hfam ▸ hx))

/-- Both ends of the connection of a client. -/
def SameEndpoints (x y : ProxyAddrs) : Prop :=
  SameEndpoint x.src y.src ∧ SameEndpoint x.dst y.dst

theorem SameEndpoints.oneFamily {x y : ProxyAddrs} (h : SameEndpoints x y) (hone : OneFamily y) :
    OneFamily x := by
  obtain ⟨hsrc, hdst⟩ := h
  rw [OneFamily, hsrc.1, hdst.1]
  exact hone

/-- A proxy with an open connection has the bytes of the client at the beginning to pass on, and its
addresses. By induction along the chain. -/
theorem ChainInv.forward (h : ChainInv cfg c) :
    ∀ i ≤ cfg.hops, (c i).Opened (cfg.node i) →
      (c 0).Opened (cfg.node 0) ∧ (c i).stream .client <+: (c 0).stream .client ∧
        (OneFamily (c 0).addrs → SameEndpoints (c i).addrs (c 0).addrs) := by
  intro i
  induction i with
  | zero =>
    intro _ hopened
    refine ⟨hopened, List.prefix_rfl, fun _ => ?_⟩
    exact ⟨⟨rfl, rfl, fun _ => rfl, fun _ => rfl⟩, ⟨rfl, rfl, fun _ => rfl, fun _ => rfl⟩⟩
  | succ i ih =>
    intro hi hopened
    obtain ⟨hprev, -, hstream, htold⟩ := hop_forward (h.relay i (by omega)) (h.linked i hi)
      ((cfg.inet_eq (i + 1) hi).trans (cfg.inet_eq i (by omega)).symm) (cfg.announces i hi) (cfg.atProxyPort i hi) hopened
    obtain ⟨hfirst, hstream', hsame⟩ := ih (by omega) hprev
    refine ⟨hfirst, hstream.trans hstream', fun hone => ?_⟩
    have hsame' := hsame hone
    rw [if_pos (hsame'.oneFamily hone)] at htold
    exact ⟨htold.1.trans hsame'.1, htold.2.trans hsame'.2⟩

theorem ChainInv.back (h : ChainInv cfg c) :
    ∀ i ≤ cfg.hops, (c 0).sent .server <+: (c i).sent .server := by
  intro i
  induction i with
  | zero => exact fun _ => List.prefix_rfl
  | succ i ih =>
    intro hi
    exact (ih (by omega)).trans (hop_back (h.relay (i + 1) hi) (h.linked i hi))

end Chain

end PhxSql.Proxy
