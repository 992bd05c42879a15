import FlannelNg.Acquire
import FlannelNg.Links
import FlannelNg.UdpPacket

/-! The network of the UDP backend: its registration and the loop that moves packets
between the socket and the TUN device. An error of a datagram leaves the loop, an error
of a packet from the TUN device is ignored. -/
namespace FlannelNg
open Cidr Outcome Runs OnesComplement

def defaultPort : Nat := 8285
def encapOverhead : Nat := 28

/- The `Port` of the backend configuration, when it is an unsigned integer. -/
def configuredPort (config : Config) : Option Nat :=
  config.backend.bind (fun backend => (backend.asObject.bind (Json.get "Port")).bind Json.asU64)

def getPortFromConfig (config : Config) : Nat :=
  match config.backend with
  | none => defaultPort
  | some backend => ((backend.asObject.bind (Json.get "Port")).bind Json.asU64).getD defaultPort % 2 ^ 16

/- A TUN device as it was configured. -/
structure Tun where
  name : String
  linkIndex : Nat
  addr : Ipv4Network
  mtu : Nat
  route : Route
  deriving DecidableEq, Repr

/-- What the system answers while the device is made and the socket is bound. -/
structure UdpSetup where
  openTun : Except String String
  register : Option String := none
  linkByName : Except String (Option Nat)
  addrAdd : Option String := none
  setMtu : Option String := none
  setUp : Option String := none
  routeAdd : Option String := none
  bind : Option String := none
  ephemeral : Nat

def configureTun (setup : UdpSetup) (ifname : String) (ipNetwork : Ipv4Network) (mtu : Nat) : Res Tun := do
  let link ← lift setup.linkByName
  let linkIndex ← okOr "link not found" link
  let ipLocal ← okOr "invalid prefix" (Ipv4Network.new ipNetwork.ip 32)
  answer setup.addrAdd (.ok ())
  answer setup.setMtu (.ok ())
  answer setup.setUp (.ok ())
  let dst ← okOr "invalid prefix" (Ipv4Network.new ipNetwork.network ipNetwork.prefixLen)
  answer setup.routeAdd (.ok ())
  return {
    name := ifname
    linkIndex
    addr := ipLocal
    mtu
    route := { linkIndex, scope := rtScopeUniverse, dst := some dst } }

structure UdpNetwork where
  extIface : ExternalInterface
  subnetLease : Lease
  port : Nat
  tunNet : Ipv4Network
  tunFile : Option Tun
  conn : Option SocketAddr
  deriving DecidableEq, Repr

namespace UdpNetwork

def mtu (build : Build) (n : UdpNetwork) : Res Nat := subNat 32 build n.extIface.iface.mtu encapOverhead

def initTun (build : Build) (setup : UdpSetup) (n : UdpNetwork) : Res UdpNetwork := do
  let name ← lift setup.openTun
  answer setup.register (.ok ())
  let mtu ← n.mtu build
  let tun ← configureTun setup name n.tunNet mtu
  return { n with tunFile := some tun }

/- The system chooses a port where none is given. -/
def bind (setup : UdpSetup) (addr : SocketAddr) : Res SocketAddr :=
  answer setup.bind (.ok (if addr.port = 0 then { addr with port := setup.ephemeral } else addr))

def new (build : Build) (setup : UdpSetup) (extIface : ExternalInterface) (port : Nat) (nw : Ipv4Network)
    (lease : Lease) : Res UdpNetwork := do
  let n : UdpNetwork := {
    extIface
    subnetLease := lease
    port
    tunNet := nw
    tunFile := none
    conn := none }
  let n ← n.initTun build setup
  let socket ← bind setup ⟨n.extIface.ifaceAddr, n.port⟩
  return { n with conn := some socket }

theorem newMade {build : Build} {setup : UdpSetup} {extIface : ExternalInterface} {port : Nat} {net : Ipv4Network}
    {lease : Lease} {n : UdpNetwork} (made : new build setup extIface port net lease = .ok n) : ∃ mtu tun socket,
      n = ⟨extIface, lease, port, net, some tun, some socket⟩ ∧ n.mtu build = .ok mtu ∧
      bind setup ⟨extIface.ifaceAddr, port⟩ = .ok socket := by
  simp only [new, initTun, bindOk] at made
  obtain ⟨_, ⟨_, _, _, _, mtu, known, tun, _, last⟩, socket, bound, done⟩ := made
  cases Except.ok.inj last
  cases Except.ok.inj done
  exact ⟨mtu, tun, socket, rfl, known, bound⟩

end UdpNetwork

def Config.getFlannelNetwork (config : Config) : Res Ipv4Network :=
  okOr "could not find an ipv4 network in the flannel configuration" config.network

section Register
variable {K V : Type} [DecidableEq K] (codec : Codec K V)

def udpRegisterNetwork (build : Build) (fuel : Nat) (stored : Res Config) (attempts : Nat → Attempt K V)
    (setup : UdpSetup) (extIface : ExternalInterface) (config : Config) (db : Etcd K V) :
    Res UdpNetwork × Etcd K V :=
  let port := getPortFromConfig config
  let attrs : LeaseAttrs := { publicIp := extIface.ifaceAddr }
  let (lease, db) := acquireLease codec build fuel stored attrs attempts db
  let registered := do
    let lease ← lease
    let net ← config.getFlannelNetwork
    let tunNet ← okOr "invalid prefix" (Ipv4Network.new lease.subnet.ip net.prefixLen)
    UdpNetwork.new build setup extIface port tunNet lease
  (registered, db)

end Register

/- What the select loop takes up next. -/
inductive Input where
  | datagram (payload : Bytes)
  | packet (payload : Bytes)
  | events (events : List LeaseWatchEvent)
  deriving DecidableEq, Repr

inductive Effect where
  | written (bytes : Bytes)
  | sent (datagram : Option Datagram)
  | routed (routes : List RouteEntry)
  deriving DecidableEq, Repr

def Effect.routes (old : List RouteEntry) : Effect → List RouteEntry
  | .routed routes => routes
  | _ => old

/- One round of the loop; it breaks with no effect. -/
def handleInput (mtu : Nat) (routes : List RouteEntry) : Input → Res (Option Effect)
  | .datagram payload => do
    let ipPkt ← IpSlice.new (payload.take mtu)
    return some (.written (decrementTtl ipPkt).slice)
  | .packet payload =>
    let buf := payload.take mtu
    if buf.length = 0 then .ok none
    else do
      let sent ← ignoreError (sendUdpPacket buf routes)
      return some (.sent sent.join)
  | .events events => .ok (some (.routed (events.foldl handleLeaseEvent routes)))

structure UdpLoop where
  routes : List RouteEntry := []
  handled : List (Input × Effect) := []
  exited : Option (Res Unit) := none
  deriving DecidableEq

def UdpLoop.step (mtu : Nat) (loop : UdpLoop) (input : Input) : UdpLoop :=
  if loop.exited.isSome then loop
  else match handleInput mtu loop.routes input with
    | .error stop => { loop with exited := some (.error stop) }
    | .ok none => { loop with exited := some (.ok ()) }
    | .ok (some effect) => {
        routes := effect.routes loop.routes
        handled := loop.handled ++ [(input, effect)]
        exited := none }

def UdpNetwork.run (build : Build) (n : UdpNetwork) (inputs : List Input) : Res UdpLoop := do
  let _ ← unwrap n.conn
  let mtu ← n.mtu build
  let _ ← unwrap n.tunFile
  return Runs.run (UdpLoop.step mtu) {} inputs

end FlannelNg
