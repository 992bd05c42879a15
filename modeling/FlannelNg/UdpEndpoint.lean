import FlannelNg.Race
import FlannelNg.UdpNetwork

/-! Whether a packet reaches the socket of the peer that holds its subnet. The peer binds
the port of the configuration; the sender takes the address of the announced entry and a
port of its own. -/
namespace FlannelNg
open Cidr Replay Outcome

/- Every packet for the subnet becomes one datagram to the bound address, and the port is
the configured one where that is a port. -/
structure Reached (config : Config) (routes : List RouteEntry) (b : UdpNetwork) : Prop where
  sends : ∀ packet : IpSlice, packet.version = 4 → b.subnetLease.subnet.contains packet.destination = true →
    ∃ bound payload, b.conn = some bound ∧ sendUdpPacket packet.slice routes = .ok (some ⟨bound, payload⟩)
  port : ∀ bound p, b.conn = some bound → configuredPort config = some p → 1 ≤ p → p ≤ 65535 → bound.port = p

/- The entry that a node finds for its address, if it fits, has no host bits. -/
def ReusesCanonical (config : Config) (ip : Ipv4Addr) (att : Round) (db : Etcd Ipv4Network LeaseAttrs) : Prop :=
  ∀ leases revision old, getSubnets Codec.plain att.read (att.seen db) = .ok (leases, revision) →
    leases.find? (fun it => it.attrs.publicIp = ip) = some old → isReusable config old = .ok true →
      old.subnet.Canonical

section Register
variable {build : Build} {fuel : Nat} {stored : Res Config} {config cfg : Config} {attempts : Nat → Round}
variable {setup : UdpSetup} {extIface : ExternalInterface} {db after : Etcd Ipv4Network LeaseAttrs} {b : UdpNetwork}

theorem portIs (config : Config) : getPortFromConfig config = (configuredPort config).getD defaultPort % 2 ^ 16 := by
  unfold getPortFromConfig configuredPort
  cases config.backend <;> rfl

theorem madeBinds {port : Nat} {net : Ipv4Network} {lease : Lease}
    (made : UdpNetwork.new build setup extIface port net lease = .ok b) : b.subnetLease = lease ∧
      b.conn = some ⟨extIface.ifaceAddr, if port = 0 then setup.ephemeral else port⟩ := by
  obtain ⟨_, _, socket, rfl, _, bound⟩ := UdpNetwork.newMade made
  refine ⟨rfl, ?_⟩
  unfold UdpNetwork.bind answer at bound
  split at bound
  · contradiction
  · rw [← Except.ok.inj bound]
    by_cases none_ : port = 0 <;> simp [none_]

theorem registeredBinds (registered : udpRegisterNetwork Codec.plain build fuel stored attempts setup extIface config db =
      (.ok b, after)) :
    acquireLease Codec.plain build fuel stored { publicIp := extIface.ifaceAddr } attempts db =
        (.ok b.subnetLease, after) ∧
      b.conn = some ⟨extIface.ifaceAddr, if getPortFromConfig config = 0 then setup.ephemeral
        else getPortFromConfig config⟩ := by
  unfold udpRegisterNetwork at registered
  rcases acquired : acquireLease Codec.plain build fuel stored { publicIp := extIface.ifaceAddr } attempts db with
    ⟨result, later⟩
  simp only [acquired, Prod.mk.injEq, bindOk] at registered
  obtain ⟨⟨lease, won, net, _, tunNet, _, made⟩, rfl⟩ := registered
  obtain ⟨same, bound⟩ := madeBinds made
  exact ⟨by rw [won, same], bound⟩

theorem acquiredEntry {attrs : LeaseAttrs} {lease : Lease} (accepted : getNetworkConfig build stored = .ok cfg)
    (ok : acquireLease Codec.plain build fuel stored attrs attempts db = (.ok lease, after)) :
    (∃ id, after.get lease.subnet = some ⟨lease.subnet, attrs, id⟩) ∧
      (lease.subnet.Canonical ↔ ReusesCanonical cfg attrs.publicIp (attempts 0) db) := by
  obtain ⟨subnetMin, subnetMax, range⟩ := acceptedRange accepted
  rw [acquireIsFirst accepted] at ok
  obtain ⟨choice, chosen, wrote⟩ := tried ok
  obtain ⟨exp, _, made, id, rfl⟩ := committed wrote
  obtain ⟨leases, revision, read, chose⟩ := decided chosen
  refine ⟨⟨id, by rw [Etcd.getPut]; exact if_pos rfl⟩, ?_⟩
  cases choice with
  | reuse old =>
    obtain ⟨first, fits⟩ := choseReuse chose
    have same : lease = old := made
    subst same
    constructor
    · intro canonical leases' revision' old' read' first' _
      cases read.symm.trans read'
      cases first.symm.trans first'
      exact canonical
    · intro reuses
      exact reuses leases revision lease read first fits
  | create sn =>
    obtain ⟨block, unfit⟩ := choseCreate chose
    have same : lease.subnet = sn := congrArg Lease.subnet made
    refine iff_of_true (same ▸ (allocated range block).canonical) ?_
    intro leases' revision' old read' first fits
    cases read.symm.trans read'
    exact absurd (fits.symm.trans (unfit old first)) (by simp)

end Register

section Send
variable {routes : List RouteEntry} {s : Ipv4Network} {ip : Ipv4Addr} {v : View}

/- A packet with nothing but a version and a destination. -/
def plainPacket (d : Ipv4Addr) : IpSlice where
  slice := 0x40 :: (List.replicate 15 0 ++ [24, 16, 8, 0].map (fun i => UInt8.ofBitVec (d.extractLsb' i 8)))
  long := by simp

theorem plainPacketIpv4 (d : Ipv4Addr) : (plainPacket d).version = 4 := by
  change (0x40 : UInt8) >>> 4 = 4
  decide

theorem plainPacketTo (d : Ipv4Addr) : (plainPacket d).destination = d := by
  calc (plainPacket d).destination
      = d.extractLsb' 24 8 ++ d.extractLsb' 16 8 ++ d.extractLsb' 8 8 ++ d.extractLsb' 0 8 := rfl
    _ = d.extractLsb' 0 32 := by
      rw [BitVec.extractLsb'_append_extractLsb'_eq_extractLsb' (show 24 = 16 + 8 from rfl),
        BitVec.extractLsb'_append_extractLsb'_eq_extractLsb' (show 16 = 8 + 8 from rfl),
        BitVec.extractLsb'_append_extractLsb'_eq_extractLsb' (show 8 = 0 + 8 from rfl)]
    _ = d := BitVec.extractLsb'_eq_self

/- The only route that can match the destination is that of the peer, which matches no
address when it has host bits. -/
theorem sentToPeer (rep : Keyed.Represents RouteEntry.dst RouteEntry.nextHop routes (nextHops v))
    (known : nextHops v s = some ip) (alone : ∀ r ∈ routes, r.dst ≠ s → r.dst.Disjoint s) {packet : IpSlice}
    (isIpv4 : packet.version = 4) (inside : s.contains packet.destination = true) :
    sendUdpPacket packet.slice routes =
      .ok (if s.Canonical then some ⟨⟨ip, 8285⟩, (decrementTtl packet).slice⟩ else none) := by
  have only : ∀ t hop, nextHops v t = some hop → routedBy packet.destination t = true → t = s := by
    intro t hop present hit
    obtain ⟨r, mem, rfl⟩ := rep.complete t hop present
    by_contra other
    exact alone r mem other packet.destination ⟨(routedExact.mp hit).2, inside⟩
  have four : (IpSlice.mk packet.slice packet.long).version = 4 := isIpv4
  rw [sentPacket packet.long, if_neg (not_not.mpr four)]
  change Except.ok ((routes.find? (fun it => routedBy packet.destination it.dst)).map _) = _
  by_cases canonical : s.Canonical
  · obtain ⟨route, found, hop⟩ := Keyed.representsFind rep known (routedExact.mpr ⟨canonical, inside⟩) only
    rw [found, if_pos canonical, ← hop]
    rfl
  · have missed : routes.find? (fun it => routedBy packet.destination it.dst) = none := by
      rw [Keyed.representsFindNone rep]
      intro t hop present
      by_contra hit
      have routed := (Bool.not_eq_false _).mp hit
      exact canonical (only t hop present routed ▸ (routedExact.mp routed).1)
    rw [missed, if_neg canonical]
    rfl

/- After the put of a subnet, and no later event of it, its routes lead to the address put. -/
theorem announcedHop {put : LeaseWatchEvent} {pre post : List LeaseWatchEvent} (isPut : put.eventType = .put)
    (newest : ∀ e ∈ post, e.lease.subnet ≠ put.lease.subnet) :
    nextHops (replay unknown ((pre ++ put :: post).map LeaseWatchEvent.change)) put.lease.subnet =
      some put.lease.attrs.publicIp := by
  rw [nextHops, List.map_append, List.map_cons, replayInForce (changeKey put) (valueOfPut isPut), Option.map_some]
  intro c member same
  obtain ⟨e, mem, rfl⟩ := List.mem_map.mp member
  rw [changeKey] at same
  exact absurd same (newest e mem)

end Send

theorem peerReachedIff {build : Build} {fuel : Nat} {stored : Res Config} {config cfg : Config} {attempts : Nat → Round}
    {setup : UdpSetup} {extIface : ExternalInterface} {db after : Etcd Ipv4Network LeaseAttrs} {b : UdpNetwork}
    {kv : KeyValue Ipv4Network LeaseAttrs} {ttl : Option Int} {now : SystemTime} {put : LeaseWatchEvent}
    {pre post : List LeaseWatchEvent} (accepted : getNetworkConfig build stored = .ok cfg)
    (registered : udpRegisterNetwork Codec.plain build fuel stored attempts setup extIface config db = (.ok b, after))
    (entry : after.get b.subnetLease.subnet = some kv)
    (announced : parseSubnetWatchResp Codec.plain ⟨.put kv, ttl, now⟩ = .ok (some put))
    (newest : ∀ e ∈ post, e.lease.subnet ≠ b.subnetLease.subnet)
    (alone : ∀ r ∈ (pre ++ put :: post).foldl handleLeaseEvent [], r.dst ≠ b.subnetLease.subnet →
      r.dst.Disjoint b.subnetLease.subnet) :
    Reached config ((pre ++ put :: post).foldl handleLeaseEvent []) b ↔
      ReusesCanonical cfg extIface.ifaceAddr (attempts 0) db ∧
        ((configuredPort config).getD 8285 % 2 ^ 16 = 8285 ∨
          (configuredPort config).getD 8285 % 2 ^ 16 = 0 ∧ setup.ephemeral = 8285) := by
  obtain ⟨acquired, bound⟩ := registeredBinds registered
  obtain ⟨⟨id, stored'⟩, canonicalIff⟩ := acquiredEntry accepted acquired
  cases entry.symm.trans stored'
  obtain ⟨isPut, subnet, attrs⟩ := plainAnnounced announced
  have rep := @runRepresents [] unknown (pre ++ put :: post) Keyed.representsNil
  have known := @announcedHop put pre post isPut (subnet ▸ newest)
  rw [subnet, attrs] at known
  have sent := fun packet isIpv4 inside => @sentToPeer _ _ _ _ rep known alone packet isIpv4 inside
  rw [← canonicalIff]
  rw [portIs config, show defaultPort = 8285 from rfl] at bound
  constructor
  · intro reached
    have inside : b.subnetLease.subnet.contains (plainPacket b.subnetLease.subnet.ip).destination = true := by
      rw [plainPacketTo]
      exact containsSelf _
    obtain ⟨addr, payload, is, delivered⟩ := reached.sends _ (plainPacketIpv4 _) inside
    rw [sent _ (plainPacketIpv4 _) inside] at delivered
    by_cases canonical : b.subnetLease.subnet.Canonical
    · refine ⟨canonical, ?_⟩
      rw [if_pos canonical, Except.ok.injEq, Option.some.injEq, Datagram.mk.injEq] at delivered
      have ports := congrArg SocketAddr.port (delivered.1.trans (Option.some.inj (bound.symm.trans is)).symm)
      dsimp only at ports
      split at ports
      · rename_i chosen
        exact .inr ⟨chosen, ports.symm⟩
      · exact .inl ports.symm
    · simp [if_neg canonical] at delivered
  · rintro ⟨canonical, fits⟩
    refine ⟨fun packet isIpv4 inside => ⟨_, (decrementTtl packet).slice, bound, ?_⟩, fun addr p is configured low high => ?_⟩
    · rw [sent packet isIpv4 inside, if_pos canonical]
      rcases fits with same | ⟨chosen, same⟩
      · rw [same]
        rfl
      · rw [chosen, same]
        rfl
    · cases bound.symm.trans is
      rw [configured, Option.getD_some, Nat.mod_eq_of_lt (show p < 2 ^ 16 by omega)]
      exact if_neg (by omega)

private def alone (_ : Nat) : Round where
  read := ReadRpc.quiet 100 0
  pick := 0
  write := WriteRpc.quiet 1 0

private def peerSetup : UdpSetup := { openTun := .ok "flannel0", linkByName := .ok (some 7), ephemeral := 40000 }

private def peerIface : ExternalInterface := { iface := ⟨2, 1500, "eth0"⟩, ifaceAddr := 0xC0A80002, extAddr := some 0xC0A80002 }

private def peerEntry : KeyValue Ipv4Network LeaseAttrs := ⟨cidr 0x0A000004 30, { publicIp := 0xC0A80002 }, 1⟩

private def peerLeased (secs : Nat) : Lease := {
  Lease.default 0 with
  enableIpv4 := true
  subnet := cidr 0x0A000004 30
  attrs := { publicIp := 0xC0A80002 }
  expiration := secs * SystemTime.nanos }

private def listening (port : Nat) : UdpNetwork where
  extIface := peerIface
  subnetLease := peerLeased 86400
  port
  tunNet := cidr 0x0A000004 28
  tunFile := some {
    name := "flannel0"
    linkIndex := 7
    addr := cidr 0x0A000004 32
    mtu := 1472
    route := { linkIndex := 7, dst := some (cidr 0x0A000000 28) } }
  conn := some ⟨0xC0A80002, port⟩

theorem defaultPeerReached : Reached smallConfig ([⟨peerLeased 100, .put⟩].foldl handleLeaseEvent []) (listening 8285) := by
  refine (@peerReachedIff .checked 9 (.ok smallConfig) smallConfig smallAccepted alone peerSetup peerIface Etcd.empty
    (Etcd.empty.put Codec.plain peerEntry) (listening 8285) peerEntry (some 100) 0 ⟨peerLeased 100, .put⟩ [] []
    (smallConfigAccepted .checked) (by decide) (by decide) (by decide) (by decide) (by decide)).mpr ⟨?_, .inl rfl⟩
  intro leases revision old read first
  cases read
  contradiction

private def portConfig : Config := { smallConfig with backend := some (.obj [("Port", .num 9000)]) }

/- The peer listens on the configured port 9000, and its packets are sent to port 8285. -/
theorem configuredPortMissed :
    udpRegisterNetwork Codec.plain .checked 9 (.ok portConfig) alone peerSetup peerIface portConfig Etcd.empty =
        (.ok (listening 9000), Etcd.empty.put Codec.plain peerEntry) ∧
      parseSubnetWatchResp Codec.plain ⟨.put peerEntry, some 100, 0⟩ = .ok (some ⟨peerLeased 100, .put⟩) ∧
      sendUdpPacket (plainPacket 0x0A000005).slice ([⟨peerLeased 100, .put⟩].foldl handleLeaseEvent []) =
        .ok (some ⟨⟨0xC0A80002, 8285⟩, (plainPacket 0x0A000005).slice⟩) ∧
      ¬Reached portConfig ([⟨peerLeased 100, .put⟩].foldl handleLeaseEvent []) (listening 9000) := by
  have sent : sendUdpPacket (plainPacket 0x0A000005).slice ([⟨peerLeased 100, .put⟩].foldl handleLeaseEvent []) =
      .ok (some ⟨⟨0xC0A80002, 8285⟩, (plainPacket 0x0A000005).slice⟩) := by decide
  refine ⟨by decide, by decide, sent, fun reached => ?_⟩
  obtain ⟨bound, payload, is, delivered⟩ := reached.sends (plainPacket 0x0A000005) (plainPacketIpv4 _) (by decide)
  cases is
  rw [sent] at delivered
  simp at delivered

end FlannelNg
