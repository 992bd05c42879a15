import FlannelNg.ClusterClock
import FlannelNg.ClusterRoutes
import FlannelNg.UdpEndpoint
import FlannelNg.UdpLoop

/-! The way of a packet from the TUN device of one node to that of another: the sender's
routes lead to the node that holds the subnet, and the bytes arrive with the TTL lowered by
each of the two. -/
namespace FlannelNg
open Cidr Outcome Replay Runs OnesComplement

/- The bytes with a TTL that is less by so many, but at least zero. -/
structure Lowered (hops : Nat) (before after : Bytes) : Prop where
  length : after.length = before.length
  ttl : (after.getD 8 0).toNat = (before.getD 8 0).toNat - hops
  others : ∀ i, i ≠ 8 → after[i]? = before[i]?

section Ttl
variable {ip : IpSlice} {j k : Nat} {a b c : Bytes}

theorem loweredTrans (first : Lowered j a b) (second : Lowered k b c) : Lowered (j + k) a c where
  length := second.length.trans first.length
  ttl := by rw [second.ttl, first.ttl, Nat.sub_sub]
  others := fun i other => (second.others i other).trans (first.others i other)

theorem ttlByte : ip.slice.getD 8 0 = ip.ttl := by
  have here : ip.slice[8]? = some ip.ttl := byteAt 8
  rw [List.getD_eq_getElem?_getD, here]
  rfl

theorem decrementLowers : Lowered 1 ip.slice (decrementTtl ip).slice := by
  refine ⟨decrementLength, ?_, ?_⟩
  · rw [ttlByte, ttlByte]
    unfold decrementTtl
    split
    · rename_i positive
      have one : (1 : UInt8) ≤ ip.ttl := UInt8.le_iff_toNat_le.mpr (UInt8.lt_iff_toNat_lt.mp positive)
      have written : (ip.setTtl (ip.ttl - 1)).ttl = ip.ttl - 1 := List.getElem_set_self _
      rw [written, UInt8.toNat_sub_of_le _ _ one]
      rfl
    · rename_i none_
      have zero : ¬0 < ip.ttl.toNat := fun positive => none_ (UInt8.lt_iff_toNat_lt.mpr positive)
      omega
  · intro i other
    unfold decrementTtl IpSlice.setTtl
    split
    · exact List.getElem?_set_ne (Ne.symm other)
    · rfl

end Ttl

section Forward
variable {routes : List RouteEntry} {packet : IpSlice} {mtu : Nat}

theorem sentToHop {hop : Ipv4Addr} (isIpv4 : packet.version = 4)
    (routed : (findRoute routes packet.destination).map (Option.map RouteEntry.nextHop) = .ok (some hop)) :
    sendUdpPacket packet.slice routes = .ok (some ⟨⟨hop, 8285⟩, (decrementTtl packet).slice⟩) := by
  rw [findRouteFind] at routed
  obtain ⟨route, found, rfl⟩ := Option.map_eq_some_iff.mp (Except.ok.inj routed)
  have four : (IpSlice.mk packet.slice packet.long).version = 4 := isIpv4
  rw [sentPacket packet.long, if_neg (not_not.mpr four)]
  exact congrArg (fun r => Except.ok (Option.map (fun route : RouteEntry => (⟨⟨route.nextHop, 8285⟩,
    (decrementTtl packet).slice⟩ : Datagram)) r)) found

/- A packet that fits the buffer is sent as it was read. -/
theorem packetSent {d : Datagram} (fits : packet.slice.length ≤ mtu)
    (sent : sendUdpPacket packet.slice routes = .ok (some d)) :
    handleInput mtu routes (.packet packet.slice) = .ok (some (.sent (some d))) := by
  have some_ : packet.slice.length ≠ 0 := Nat.ne_of_gt (Nat.lt_of_lt_of_le (by decide) packet.long)
  simp only [handleInput, List.take_of_length_le fits, if_neg some_, sent]
  rfl

theorem datagramWritten (fits : packet.slice.length ≤ mtu) :
    handleInput mtu routes (.datagram packet.slice) = .ok (some (.written (decrementTtl packet).slice)) := by
  simp only [handleInput, List.take_of_length_le fits, newLong packet.long]
  rfl

end Forward

section Cluster
variable {N : Type} [DecidableEq N] {build : Build} {publicIp : N → Ipv4Addr} {config : Config}

theorem packetsReachHolder {c before after : Cluster N} {pre post : List (Action N)} {own lease leased : Lease}
    {w : Option OwnWatch} {kv : KeyValue Ipv4Network LeaseAttrs} {rpc : ReadRpc Ipv4Network LeaseAttrs}
    {responses : List (WatchResponse Ipv4Network LeaseAttrs)} {registered : Nat} {n : N} {b : UdpNetwork} {setup : UdpSetup}
    {extIface : ExternalInterface} {net : Ipv4Network} (distinct : Function.Injective publicIp)
    (accepted : getNetworkConfig build c.stored = .ok config) (recorded : Recorded Codec.plain c.db) (apart : Apart c.db)
    (idle : ∀ n, c.node n = .idle)
    (permitted : Along (step build publicIp) Orderly c (pre ++ post))
    (snapshot : run (step build publicIp) c pre = before) (reached : run (step build publicIp) before post = after)
    (caughtUp : CaughtUp rpc responses registered before.db after.db) (holds : after.node n = .holding lease w)
    (alive : after.db.get lease.subnet = some kv) (other : lease.subnet ≠ own.subnet)
    (made : UdpNetwork.new build setup extIface (getPortFromConfig config) net leased = .ok b)
    (address : extIface.ifaceAddr = publicIp n) (port : (configuredPort config).getD 8285 % 2 ^ 16 = 8285 ∨
      (configuredPort config).getD 8285 % 2 ^ 16 = 0 ∧ setup.ephemeral = 8285) :
    ∃ results mtu', watchLeasesInner Codec.plain rpc before.db responses = .ok results ∧ b.mtu build = .ok mtu' ∧
      ∀ (mtu : Nat) (inputs : List Input), (∀ i ∈ inputs, Readable mtu i) →
        inputs.flatMap Input.leaseEvents = received own results →
        ∀ packet : IpSlice, packet.version = 4 → lease.subnet.contains packet.destination = true →
          packet.slice.length ≤ mtu → packet.slice.length ≤ mtu' → ∃ d bytes,
            handleInput mtu (run (UdpLoop.step mtu) {} inputs).routes (.packet packet.slice) = .ok (some (.sent (some d))) ∧
            b.conn = some d.addr ∧
            (∀ routes, handleInput mtu' routes (.datagram d.payload) = .ok (some (.written bytes))) ∧
            Lowered 2 packet.slice bytes := by
  have whole : run (step build publicIp) c (pre ++ post) = after := by rw [runAppend, snapshot, reached]
  obtain ⟨safe, owned⟩ := runOrderly distinct ⟨accepted, apart, fun n => idle n ▸ trivial⟩
    (idleOwned accepted idle) permitted
  rw [whole] at safe owned
  have recorded' : Recorded Codec.plain before.db := snapshot ▸ runRecorded recorded
  have later : before.db.log <+: after.db.log := reached ▸ runLog
  have recorded'' : Recorded Codec.plain after.db := reached ▸ runRecorded recorded'
  obtain ⟨results, inner, inStep⟩ := caughtUpInStep own recorded' recorded'' later caughtUp
  obtain ⟨mtu', known, _⟩ := madeRuns made
  refine ⟨results, mtu', inner, known, ?_⟩
  intro mtu inputs readable events packet isIpv4 inside fits fits'
  obtain ⟨stored, key⟩ := Etcd.getSome alive
  have found : entryOf own.subnet after.db packet.destination = some kv :=
    entryFound safe.apart stored (key ▸ other) (key ▸ inside)
  have mine : kv.value.publicIp = publicIp n := owned.claimed n lease.subnet kv (by rw [holds]; rfl) alive
  have routed := receivedRoutes safe.apart inStep packet.destination
  rw [found, Option.map_some, mine, ← events, ← (runOngoing readable).routes] at routed
  have carried : (decrementTtl packet).slice.length ≤ mtu' := decrementLength.trans_le fits'
  refine ⟨⟨⟨publicIp n, 8285⟩, (decrementTtl packet).slice⟩, (decrementTtl (decrementTtl packet)).slice,
    packetSent fits (sentToHop isIpv4 routed), ?_, fun routes => datagramWritten carried, ?_⟩
  · have bound := (madeBinds made).2
    rw [portIs config, show defaultPort = 8285 from rfl, address] at bound
    rcases port with same | ⟨chosen, same⟩
    · rw [bound, same]
      rfl
    · rw [bound, chosen, same]
      rfl
  · exact loweredTrans decrementLowers decrementLowers

end Cluster

private def secondSetup : UdpSetup := { openTun := .ok "flannel0", linkByName := .ok (some 7), ephemeral := 40000 }

private def secondLease : Lease := {
  Lease.default 0 with
  enableIpv4 := true
  subnet := cidr 0x0A000008 30
  attrs := { publicIp := 2 }
  expiration := 86400 * SystemTime.nanos }

private def secondNetwork : UdpNetwork where
  extIface := { iface := ⟨2, 1500, "eth0"⟩, ifaceAddr := 2, extAddr := some 2 }
  subnetLease := secondLease
  port := 8285
  tunNet := cidr 0x0A000008 28
  tunFile := some {
    name := "flannel0"
    linkIndex := 7
    addr := cidr 0x0A000008 32
    mtu := 1472
    route := { linkIndex := 7, dst := some (cidr 0x0A000000 28) } }
  conn := some ⟨2, 8285⟩

private theorem joiningOrderly : Along (step .checked addressOf) Orderly newCluster (firstJoins ++ secondJoins) := by
  refine ⟨⟨trivial, trivial⟩, ⟨fun _ => rfl, trivial⟩, ⟨trivial, fun _ _ m other => ?_⟩, ⟨trivial, trivial⟩,
    ⟨fun _ => rfl, trivial⟩, ⟨trivial, fun _ _ m other => ?_⟩, trivial⟩
  · cases m with
    | false => contradiction
    | true => decide
  · cases m with
    | false => decide
    | true => contradiction

theorem joinedPacketsArrive : ∃ results mtu', watchLeasesInner Codec.plain (ReadRpc.quiet 100 0)
        (run (step .checked addressOf) newCluster firstJoins).db [joinResponse] = .ok results ∧
      secondNetwork.mtu .checked = .ok mtu' ∧
      ∀ (mtu : Nat) (inputs : List Input), (∀ i ∈ inputs, Readable mtu i) →
        inputs.flatMap Input.leaseEvents = received firstLease results →
        ∀ packet : IpSlice, packet.version = 4 → secondLease.subnet.contains packet.destination = true →
          packet.slice.length ≤ mtu → packet.slice.length ≤ mtu' → ∃ d bytes,
            handleInput mtu (run (UdpLoop.step mtu) {} inputs).routes (.packet packet.slice) = .ok (some (.sent (some d))) ∧
            secondNetwork.conn = some d.addr ∧
            (∀ routes, handleInput mtu' routes (.datagram d.payload) = .ok (some (.written bytes))) ∧
            Lowered 2 packet.slice bytes :=
  @packetsReachHolder _ _ _ _ _ newCluster _ _ firstJoins secondJoins firstLease secondLease secondLease none
    ⟨cidr 0x0A000008 30, { publicIp := 2 }, 2⟩ (ReadRpc.quiet 100 0) [joinResponse] 1 true secondNetwork secondSetup
    secondNetwork.extIface (cidr 0x0A000008 28) addressesDiffer (smallConfigAccepted .checked) recordedEmpty
    ⟨by decide, by decide⟩ (fun _ => rfl) joiningOrderly rfl
    (runAppend (s := newCluster)).symm joinCaughtUp rfl (by decide) (by decide) (by decide) rfl
    (.inl (by decide))

end FlannelNg
