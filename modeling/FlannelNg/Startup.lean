import FlannelNg.Changes
import FlannelNg.ExtIface
import FlannelNg.MacText
import FlannelNg.Mtu
import FlannelNg.SubnetFile

/-! The start of the program, up to its renewal loop. The subnet file is written last: it
names the subnet of an entry that is in the store, and a start that fails leaves it alone. -/
namespace FlannelNg
open Cidr Outcome Runs EnvText

def Network.lease : Network → Lease
  | .udp n => n.subnetLease
  | .vxlan n => n.subnetLease
  | .hostGw n => n.subnetLease

/- A TUN device lasts as long as the process that made it. -/
def Network.released {K V A : Type} (bn : Network) (host : Host K V A) : Host K V A :=
  match bn.tun with
  | none => host
  | some tun => host.withLinks (host.links.without tun.linkIndex)

def HostGw.new (extIface : ExternalInterface) : Res Unit :=
  if extIface.extAddr ≠ some extIface.ifaceAddr then
    .error (.bail ("your PublicIP differs from interface IP, meaning that probably you're on a NAT, " ++
      "which is not supported by host-gw backend"))
  else .ok ()

/- No character beyond ASCII has one of these names' letters as its lower case. -/
def getBackend (extIface : ExternalInterface) (backendType : String) : Res Backend :=
  let lower := String.ofList (backendType.toList.map Char.toLower)
  if lower = "vxlan" then .ok .vxlan
  else if lower = "udp" then .ok .udp
  else if lower = "host-gw" then do
    HostGw.new extIface
    return .hostGw
  else .error (.bail "backend is not defined")

structure Args where
  subnetFile : Path
  ipMasq : Bool

/-- What the system and etcd answer during one start. The configuration is read twice: first
by the program, then by the registration. -/
structure StartCalls (K V A : Type) where
  gateway : GatewayCalls A
  connect : Option String := none
  stored : Res Config
  registration : Registration K V A
  file : FileCalls := {}

structure Machine (K V A : Type) where
  disk : Disk
  host : Host K V A

/- What the backend's task and the renewal loop go on with. -/
structure Started where
  extIface : ExternalInterface
  config : Config
  network : Network

section Main
variable {K V A : Type} [DecidableEq K] [DecidableEq A] [Inhabited A] (codec : Codec K V)
variable (equal : Addr A → Addr A → Bool) (formatMac : MacAddr6 → String) (crates : TextCrates) (build : Build) (args : Args)

/- The steps before the registration, which change nothing. The subnet of the file is parsed only. -/
def prepare (calls : StartCalls K V A) (disk : Disk) : Res (ExternalInterface × Config × Backend) := do
  let extIface ← lookupExtIface calls.gateway
  let subnetFileMap ← readFromSubnetEnv disk args.subnetFile
  let _ ← prevSubnet crates subnetFileMap
  answer calls.connect (.ok ())
  let config ← getNetworkConfig build calls.stored
  let backendType ← unwrap config.backendType
  let backend ← getBackend extIface backendType
  return (extIface, config, backend)

def main (calls : StartCalls K V A) (m : Machine K V A) : Res Started × Machine K V A :=
  match prepare crates build args calls m.disk with
  | .error stop => (.error stop, m)
  | .ok (extIface, config, backend) =>
    match registerNetwork codec equal formatMac build calls.registration extIface config m.host backend with
    | (.error stop, host) => (.error stop, { m with host })
    | (.ok bn, host) =>
      match bn.mtu build with
      | .error stop => (.error stop, { m with host := bn.released host })
      | .ok mtu =>
        match writeSubnetFile build calls.file args.subnetFile config args.ipMasq bn.lease.subnet mtu m.disk with
        | (.error stop, disk) => (.error stop, { disk, host := bn.released host })
        | (.ok (), disk) => (.ok ⟨extIface, config, bn⟩, { disk, host })

end Main

/- The attributes that a node of this network enters. -/
inductive Advertises (formatMac : MacAddr6 → String) (extIface : ExternalInterface) : Network → LeaseAttrs → Prop where
  | udp {n} : Advertises formatMac extIface (.udp n) { publicIp := extIface.ifaceAddr }
  | vxlan {n vni mac} (device : n.device.link.linkAttrs.hardwareAddr = some mac) :
      Advertises formatMac extIface (.vxlan n) (vxlanLeaseAttrs formatMac extIface vni mac)
  | hostGw {n} : Advertises formatMac extIface (.hostGw n) { publicIp := extIface.ifaceAddr, backendType := some "host-gw" }

theorem advertisesAddress {formatMac : MacAddr6 → String} {extIface : ExternalInterface} {bn : Network} {attrs : LeaseAttrs}
    (advertises : Advertises formatMac extIface bn attrs) : attrs.publicIp = extIface.ifaceAddr := by
  cases advertises <;> rfl

section Register
variable {K V A : Type} [DecidableEq K] [DecidableEq A] [Inhabited A] {codec : Codec K V}
variable {equal : Addr A → Addr A → Bool} {formatMac : MacAddr6 → String} {build : Build}
variable {extIface : ExternalInterface} {config : Config} {backend : Backend} {backendType : String}

theorem gotHostGw (got : getBackend extIface backendType = .ok .hostGw) : extIface.extAddr = some extIface.ifaceAddr := by
  unfold getBackend at got
  dsimp only at got
  split at got <;> try contradiction
  split at got <;> try contradiction
  split at got <;> try contradiction
  obtain ⟨_, made, _⟩ := bindOk.mp got
  unfold HostGw.new at made
  split at made
  · contradiction
  · rename_i same
    exact not_not.mp same

theorem udpAcquired {fuel : Nat} {stored : Res Config} {attempts : Nat → Attempt K V} {setup : UdpSetup} {n : UdpNetwork}
    {db after : Etcd K V}
    (registered : udpRegisterNetwork codec build fuel stored attempts setup extIface config db = (.ok n, after)) :
    acquireLease codec build fuel stored { publicIp := extIface.ifaceAddr } attempts db = (.ok n.subnetLease, after) := by
  unfold udpRegisterNetwork at registered
  dsimp only at registered
  obtain ⟨made, same⟩ := Prod.mk.inj registered
  simp only [bindOk] at made
  obtain ⟨lease, acquired, net, _, tunNet, _, new⟩ := made
  obtain ⟨_, _, _, rfl, _⟩ := UdpNetwork.newMade new
  exact Prod.ext acquired same

theorem hostGwAcquired {fuel : Nat} {stored : Res Config} {attempts : Nat → Attempt K V} {n : RouterNetwork}
    {db after : Etcd K V} (address : extIface.extAddr = some extIface.ifaceAddr)
    (registered : hostGwRegisterNetwork codec build fuel stored attempts extIface db = (.ok n, after)) :
    acquireLease codec build fuel stored { publicIp := extIface.ifaceAddr, backendType := some "host-gw" } attempts db =
      (.ok n.subnetLease, after) := by
  unfold hostGwRegisterNetwork at registered
  simp only [address, unwrap] at registered
  obtain ⟨made, same⟩ := Prod.mk.inj registered
  simp only [bindOk] at made
  obtain ⟨lease, acquired, last⟩ := made
  cases Except.ok.inj last
  exact Prod.ext acquired same

theorem vxlanAcquired {fuel : Nat} {stored : Res Config} {attempts : Nat → Attempt K V} {setup : VxlanSetup A}
    {n : VxlanNetwork} {host after : Host K V A}
    (registered : vxlanRegisterNetwork codec equal formatMac build fuel stored attempts setup extIface config host = (.ok n, after)) :
    ∃ vxlanConfig attrs mac, vxlanAttrs extIface config = .ok (vxlanConfig, attrs) ∧
      n.device.link.linkAttrs.hardwareAddr = some mac ∧
      acquireLease codec build fuel stored (vxlanLeaseAttrs formatMac extIface vxlanConfig.vni mac) attempts host.db =
        (.ok n.subnetLease, after.db) := by
  unfold vxlanRegisterNetwork at registered
  split at registered
  · simp at registered
  · rename_i vxlanConfig attrs read
    split at registered
    · simp at registered
    · rename_i device links made
      split at registered
      · simp at registered
      · rename_i mac hardware
        dsimp only at registered
        split at registered
        · simp at registered
        · rename_i lease net ipa ready
          split at registered
          · simp at registered
          · obtain ⟨same, later⟩ := Prod.mk.inj registered
            cases Except.ok.inj same
            cases later
            simp only [bindOk] at ready
            obtain ⟨_, acquired, _, _, _, _, last⟩ := ready
            cases Except.ok.inj last
            exact ⟨vxlanConfig, attrs, mac, read, unwrapOk.mp hardware, Prod.ext acquired rfl⟩

omit [DecidableEq K] [DecidableEq A] in
@[simp] theorem tunStore {host : Host K V A} {tun : Option Tun} : (host.withTun tun).db = host.db := by
  cases tun <;> rfl

theorem networkAcquired {r : Registration K V A} {bn : Network} {host after : Host K V A}
    (got : getBackend extIface backendType = .ok backend)
    (registered : registerNetwork codec equal formatMac build r extIface config host backend = (.ok bn, after)) :
    ∃ attrs, Advertises formatMac extIface bn attrs ∧
      acquireLease codec build r.fuel r.stored attrs r.attempts host.db = (.ok bn.lease, after.db) := by
  cases backend with
  | udp =>
    obtain ⟨n, db, rfl, rfl, new⟩ := registeredUdp.mp registered
    rw [tunStore]
    exact ⟨_, .udp, udpAcquired new⟩
  | vxlan =>
    obtain ⟨made, same⟩ := Prod.mk.inj registered
    obtain ⟨n, new, rfl⟩ := mapOk.mp made
    obtain ⟨_, _, _, _, device, acquired⟩ := vxlanAcquired (Prod.ext new same)
    exact ⟨_, .vxlan device, acquired⟩
  | hostGw =>
    obtain ⟨made, same⟩ := Prod.mk.inj registered
    obtain ⟨n, new, rfl⟩ := mapOk.mp made
    cases same
    exact ⟨_, .hostGw, hostGwAcquired (gotHostGw got) (Prod.ext new rfl)⟩

/- What an acquired lease is the entry of, and from which snapshot it was chosen. -/
theorem acquiredChoice {fuel : Nat} {stored : Res Config} {attempts : Nat → Attempt K V} {attrs : LeaseAttrs} {lease : Lease}
    {db after : Etcd K V} (ok : acquireLease codec build fuel stored attrs attempts db = (.ok lease, after)) :
    ∃ config choice id, getNetworkConfig build stored = .ok config ∧
      decideLease codec build fuel config attrs.publicIp (attempts 0).read (attempts 0).pick
        ((attempts 0).before.foldl (interfere codec) db) = .ok choice ∧ lease.subnet = choice.subnet ∧
      after.get (codec.key lease.subnet) = some ⟨codec.key lease.subnet, codec.toVec attrs, id⟩ := by
  cases accepted : getNetworkConfig build stored with
  | error stop =>
    rw [acquireLease, accepted] at ok
    simp at ok
  | ok config =>
    rw [acquireIsFirst accepted] at ok
    obtain ⟨choice, chosen, written⟩ := tried ok
    obtain ⟨exp, _, made, id, put⟩ := committed written
    refine ⟨config, choice, id, rfl, chosen, ?_, ?_⟩
    · cases choice <;> exact congrArg Lease.subnet made
    · rw [put, Etcd.getPut, if_pos rfl]

omit [DecidableEq K] in
/- The chosen subnet has the configured length, and is canonical where the node's own one is. -/
theorem chosenSubnet {fuel pick : Nat} {rpc : ReadRpc K V} {choice : Choice} {extAddr : Ipv4Addr} {db : Etcd K V}
    {stored : Res Config} (accepted : getNetworkConfig build stored = .ok config)
    (chosen : decideLease codec build fuel config extAddr rpc pick db = .ok choice)
    (canonical : ∀ leases revision own, getSubnets codec rpc db = .ok (leases, revision) →
      leases.find? (fun it => it.attrs.publicIp = extAddr) = some own → own.subnet.Canonical) :
    choice.subnet.Canonical ∧ choice.subnet.prefixLen ≤ 30 := by
  obtain ⟨subnetMin, subnetMax, range⟩ := acceptedRange accepted
  obtain ⟨leases, revision, read, chose⟩ := decided chosen
  cases choice with
  | reuse lease =>
    obtain ⟨first, fits⟩ := choseReuse chose
    refine ⟨canonical leases revision lease read first, ?_⟩
    exact Nat.le_trans (Nat.le_of_eq ((reusableIff range).mp fits).2.2) range.lenHigh
  | create sn =>
    have free := allocated range (choseCreate chose).1
    exact ⟨free.canonical, Nat.le_trans (Nat.le_of_eq free.length) range.lenHigh⟩

end Register

theorem acceptedNetwork {build : Build} {stored : Res Config} {config : Config}
    (accepted : getNetworkConfig build stored = .ok config) :
    config.enableIpv4 = true ∧ config.backendType = some (parseBackendType config.backend) ∧
      ∃ network, config.network = some network := by
  simp only [getNetworkConfig, bindOk] at accepted
  obtain ⟨raw, _, checked⟩ := accepted
  have checked := passedCheck checked
  simp only [if_true, checkIpv4, bindOk] at checked
  obtain ⟨network, given, _, _, _, _, _, _, _, _, _, _, _, _, last⟩ := checked
  split at last <;> try contradiction
  split at last <;> try contradiction
  cases Except.ok.inj last
  exact ⟨rfl, rfl, network, okOrOk.mp given⟩

/- A writer that is done leaves the four entries. -/
theorem wroteRestores {build : Build} {calls : FileCalls} {path : Path} {config : Config} {ipMasq : Bool}
    {sn network : Ipv4Network} {mtu : Nat} {disk after : Disk} (crates : TextCrates) (net : config.network = some network)
    (ipv4 : config.enableIpv4 = true) (canonical : sn.Canonical) (short : sn.prefixLen ≤ 30)
    (wrote : writeSubnetFile build calls path config ipMasq sn mtu disk = (.ok (), after)) :
    ∃ env, readFromSubnetEnv after path = .ok env ∧ Restores crates network sn mtu ipMasq env := by
  rcases @writerEnds build calls path config ipMasq sn mtu disk with ⟨tmp, filled, all, done⟩ | ⟨stop, _, failed, _⟩
  · cases (Prod.mk.inj (done.symm.trans wrote)).2
    have start : disk.create tmp tmp = some (.file .empty) := Function.update_self ..
    obtain ⟨_, entries, same, file⟩ := writtenAll start all.written
    rw [writtenFour net ipv4 canonical short] at same
    rw [← List.map_injective_iff.mpr (fun _ _ => Except.ok.inj) same, ByteArray.empty_append] at file
    exact ⟨_, renamedReads fourClean file (tmpApart all.made), fourRestore crates (@nextAddress build sn canonical short).2 rfl⟩
  · cases (Prod.mk.inj (failed.symm.trans wrote)).1

section Start
variable {K V A : Type} [DecidableEq K] [DecidableEq A] [Inhabited A] {codec : Codec K V}
variable {equal : Addr A → Addr A → Bool} {formatMac : MacAddr6 → String} {crates : TextCrates} {build : Build} {args : Args}
variable {calls : StartCalls K V A} {m after : Machine K V A} {s : Started}

omit [DecidableEq K] [DecidableEq A] [Inhabited A] in
theorem prepared {disk : Disk} {extIface : ExternalInterface} {config : Config} {backend : Backend}
    (ok : prepare crates build args calls disk = .ok (extIface, config, backend)) :
    lookupExtIface calls.gateway = .ok extIface ∧ getNetworkConfig build calls.stored = .ok config ∧
      getBackend extIface (parseBackendType config.backend) = .ok backend := by
  simp only [prepare, bindOk] at ok
  obtain ⟨_, looked, _, _, _, _, _, _, _, accepted, _, type, _, got, last⟩ := ok
  cases Except.ok.inj last
  cases Option.some.inj ((acceptedNetwork accepted).2.1.symm.trans (unwrapOk.mp type))
  exact ⟨looked, accepted, got⟩

theorem mainStarted (started : main codec equal formatMac crates build args calls m = (.ok s, after)) :
    ∃ backend mtu, prepare crates build args calls m.disk = .ok (s.extIface, s.config, backend) ∧
      registerNetwork codec equal formatMac build calls.registration s.extIface s.config m.host backend =
        (.ok s.network, after.host) ∧ s.network.mtu build = .ok mtu ∧
      writeSubnetFile build calls.file args.subnetFile s.config args.ipMasq s.network.lease.subnet mtu m.disk =
        (.ok (), after.disk) := by
  unfold main at started
  split at started
  · simp at started
  · rename_i extIface config backend ready
    split at started
    · simp at started
    · rename_i bn host registered
      split at started
      · simp at started
      · rename_i mtu known
        split at started
        · simp at started
        · rename_i disk wrote
          obtain ⟨same, last⟩ := Prod.mk.inj started
          cases Except.ok.inj same
          cases last
          exact ⟨backend, mtu, ready, registered, known, wrote⟩

theorem mainStarts {extIface : ExternalInterface} {config : Config} {backend : Backend} {bn : Network} {host : Host K V A}
    {mtu : Nat} {disk : Disk} (ready : prepare crates build args calls m.disk = .ok (extIface, config, backend))
    (registered : registerNetwork codec equal formatMac build calls.registration extIface config m.host backend = (.ok bn, host))
    (known : bn.mtu build = .ok mtu)
    (wrote : writeSubnetFile build calls.file args.subnetFile config args.ipMasq bn.lease.subnet mtu m.disk = (.ok (), disk)) :
    main codec equal formatMac crates build args calls m = (.ok ⟨extIface, config, bn⟩, { disk, host }) := by
  simp only [main, ready, registered, known, wrote]

/- The file changes only in the last step, and there all at once. -/
theorem mainFailed {stop : Stop} (failed : main codec equal formatMac crates build args calls m = (.error stop, after)) :
    after.disk args.subnetFile = m.disk args.subnetFile := by
  unfold main at failed
  split at failed
  · rw [← (Prod.mk.inj failed).2]
  · rename_i extIface config backend ready
    split at failed
    · rw [← (Prod.mk.inj failed).2]
    · rename_i bn host registered
      split at failed
      · rw [← (Prod.mk.inj failed).2]
      · rename_i mtu known
        rcases @writerEnds build calls.file args.subnetFile config args.ipMasq bn.lease.subnet mtu m.disk with
          ⟨tmp, filled, _, done⟩ | ⟨ended, disk, notDone, same⟩
        · rw [done] at failed
          simp at failed
        · rw [notDone] at failed
          rw [← (Prod.mk.inj failed).2]
          exact same

/- The file that a start writes is read back with the subnet of its lease. -/
theorem startedFile (canonical : s.network.lease.subnet.Canonical) (short : s.network.lease.subnet.prefixLen ≤ 30)
    (started : main codec equal formatMac crates build args calls m = (.ok s, after)) :
    ∃ env network mtu, readFromSubnetEnv after.disk args.subnetFile = .ok env ∧ s.config.network = some network ∧
      s.network.mtu build = .ok mtu ∧ Restores crates network s.network.lease.subnet mtu args.ipMasq env := by
  obtain ⟨backend, mtu, ready, _, known, wrote⟩ := mainStarted started
  obtain ⟨ipv4, _, network, given⟩ := acceptedNetwork (prepared ready).2.1
  obtain ⟨env, read, restores⟩ := wroteRestores crates given ipv4 canonical short wrote
  exact ⟨env, network, mtu, read, given, known, restores⟩

theorem startPublishes (canonical : ∀ extIface leases revision own, lookupExtIface calls.gateway = .ok extIface →
      getSubnets codec (calls.registration.attempts 0).read
        ((calls.registration.attempts 0).before.foldl (interfere codec) m.host.db) = .ok (leases, revision) →
      leases.find? (fun it => it.attrs.publicIp = extIface.ifaceAddr) = some own → own.subnet.Canonical) :
    let x := main codec equal formatMac crates build args calls m
    (∀ stop, x.1 = .error stop → readFromSubnetEnv x.2.disk args.subnetFile = readFromSubnetEnv m.disk args.subnetFile) ∧
    ∀ s, x.1 = .ok s → ∃ attrs id env network mtu, Advertises formatMac s.extIface s.network attrs ∧
      x.2.host.db.get (codec.key s.network.lease.subnet) = some ⟨codec.key s.network.lease.subnet, codec.toVec attrs, id⟩ ∧
      readFromSubnetEnv x.2.disk args.subnetFile = .ok env ∧ s.config.network = some network ∧ s.network.mtu build = .ok mtu ∧
      Restores crates network s.network.lease.subnet mtu args.ipMasq env := by
  intro x
  refine ⟨fun stop failed => ?_, fun s ok => ?_⟩
  · have same : x.2.disk args.subnetFile = m.disk args.subnetFile := mainFailed (Prod.ext failed rfl)
    simp only [readFromSubnetEnv, same]
  · have started : main codec equal formatMac crates build args calls m = (.ok s, x.2) := Prod.ext ok rfl
    obtain ⟨backend, _, ready, registered, _, _⟩ := mainStarted started
    obtain ⟨looked, _, got⟩ := prepared ready
    obtain ⟨attrs, advertises, acquired⟩ := networkAcquired got registered
    obtain ⟨config, choice, id, accepted, chosen, subnet, entry⟩ := acquiredChoice acquired
    obtain ⟨canonical, short⟩ := chosenSubnet accepted chosen fun leases revision own read first =>
      canonical s.extIface leases revision own looked read (advertisesAddress advertises ▸ first)
    rw [← subnet] at canonical short
    obtain ⟨env, network, mtu, rest⟩ := startedFile canonical short started
    exact ⟨attrs, id, env, network, mtu, advertises, entry, rest⟩

end Start

private def bootPath : Path := [.rootDir, .normal (encode ['r', 'u', 'n']), .normal (encode ['e', 'n', 'v'])]

private theorem bootTmp : tmpFilePath bootPath =
    .ok [.rootDir, .normal (encode ['r', 'u', 'n']), .normal (encode ['.', 'e', 'n', 'v'])] := by
  have named : (fileName bootPath).bind decode = some ['e', 'n', 'v'] := decodeEncode
  rw [tmpFilePath, named]
  rfl

private def bootArgs : Args := ⟨bootPath, false⟩

private def bootCalls (connect : Option String) : StartCalls Ipv4Network LeaseAttrs Unit where
  gateway := {
    routeList := .ok [{ linkIndex := 2, gw := some 0xC0A80001 }]
    linkByIndex := fun _ => .ok (some ⟨{ index := 2, name := "eth0", mtu := 1500 }, .other "device"⟩)
    addrList := fun _ => .ok [⟨.v4 (cidr 0xC0A80002 24), ()⟩] }
  connect
  stored := .ok smallConfig
  registration := {
    fuel := 9
    stored := .ok smallConfig
    attempts := fun _ => { read := ReadRpc.quiet 100 0, pick := 0, write := WriteRpc.quiet 1 0 }
    tun := { openTun := .ok "flannel0", linkByName := .ok (some 7), ephemeral := 40000 }
    vxlan := { random := 0x0142AC110002, link := { newMtu := id } } }

private theorem noLinks : ∀ l ∈ ([] : List Link), l.asIndex < 7 := nofun

private def bootEntry (id : Int) : KeyValue Ipv4Network LeaseAttrs := ⟨cidr 0x0A000004 30, { publicIp := 0xC0A80002 }, id⟩

/- Besides the node's own entry there is one of another node. -/
private def bootStore : Etcd Ipv4Network LeaseAttrs :=
  (Etcd.empty.put Codec.plain ⟨cidr 0x0A000008 30, { publicIp := 0xC0A80003 }, 8⟩).put Codec.plain (bootEntry 9)

private def bootMachine : Machine Ipv4Network LeaseAttrs Unit := ⟨fun _ => none, ⟨⟨[], 7, noLinks⟩, fun _ => [], [], bootStore⟩⟩

private def bootIface : ExternalInterface where
  iface := ⟨2, 1500, "eth0"⟩
  ifaceAddr := 0xC0A80002
  extAddr := some 0xC0A80002

private def bootNetwork (linkIndex : Nat) : UdpNetwork where
  extIface := bootIface
  subnetLease := {
    Lease.default 0 with
    enableIpv4 := true
    subnet := cidr 0x0A000004 30
    attrs := { publicIp := 0xC0A80002 }
    expiration := 100 * SystemTime.nanos }
  port := 8285
  tunNet := cidr 0x0A000004 28
  tunFile := some {
    name := "flannel0"
    linkIndex
    addr := cidr 0x0A000004 32
    mtu := 1472
    route := { linkIndex, dst := some (cidr 0x0A000000 28) } }
  conn := some ⟨0xC0A80002, 8285⟩

private def bootSetup (linkIndex : Nat) : UdpSetup := (bootCalls none).registration.tun.withIndex linkIndex

private theorem bootAcquired : udpRegisterNetwork Codec.plain .checked 9 (.ok smallConfig) (bootCalls none).registration.attempts
    (bootSetup 7) bootIface smallAccepted bootStore = (.ok (bootNetwork 7), bootStore.put Codec.plain (bootEntry 1)) := by decide

private theorem bootStarts {m : Machine Ipv4Network LeaseAttrs Unit} {env : Env} {prev : Option Ipv4Network} {linkIndex : Nat}
    {db : Etcd Ipv4Network LeaseAttrs} (read : readFromSubnetEnv m.disk bootPath = .ok env)
    (parsed : prevSubnet .plain env = .ok prev)
    (acquired : udpRegisterNetwork Codec.plain .checked 9 (.ok smallConfig) (bootCalls none).registration.attempts
      (bootSetup m.host.links.nextIndex) bootIface smallAccepted m.host.db = (.ok (bootNetwork linkIndex), db)) :
    ∃ disk, main Codec.plain (fun x y => decide (x = y)) MacText.format .plain .checked bootArgs (bootCalls none) m =
      (.ok ⟨bootIface, smallAccepted, .udp (bootNetwork linkIndex)⟩,
        ⟨disk, { m.host with db }.withTun (bootNetwork linkIndex).tunFile⟩) := by
  have ready : prepare .plain .checked bootArgs (bootCalls none) m.disk = .ok (bootIface, smallAccepted, .udp) := by
    have looked : lookupExtIface (bootCalls none).gateway = .ok bootIface := rfl
    simp only [prepare, looked, bootArgs, read, parsed, bind, Except.bind]
    rfl
  have wrote : (writeSubnetFile .checked {} bootPath smallAccepted false (cidr 0x0A000004 30) 1472 m.disk).1 = .ok () := by
    rw [writeSubnetFile, bootTmp]
    rfl
  exact ⟨_, mainStarts ready (registeredUdp.mpr ⟨_, _, rfl, rfl, acquired⟩) rfl (Prod.ext wrote rfl)⟩

private theorem bootStarted : ∃ disk, main Codec.plain (fun x y => decide (x = y)) MacText.format .plain .checked bootArgs
    (bootCalls none) bootMachine = (.ok ⟨bootIface, smallAccepted, .udp (bootNetwork 7)⟩,
      ⟨disk, { bootMachine.host with db := bootStore.put Codec.plain (bootEntry 1) }.withTun (bootNetwork 7).tunFile⟩) :=
  bootStarts rfl rfl bootAcquired

/- The node finds its entry and writes it anew. -/
theorem nextStartPublishes :
    let x := main Codec.plain (fun x y => decide (x = y)) MacText.format .plain .checked bootArgs (bootCalls none) bootMachine
    x.2.host.db.get (cidr 0x0A000004 30) = some (bootEntry 1) ∧
      ∃ env, readFromSubnetEnv x.2.disk bootPath = .ok env ∧
        Restores .plain (cidr 0x0A000000 28) (cidr 0x0A000004 30) 1472 false env := by
  have started := bootStarted.choose_spec
  obtain ⟨attrs, id, env, network, mtu, advertises, entry, read, net, known, restores⟩ :=
    (@startPublishes _ _ _ _ _ _ Codec.plain (fun x y => decide (x = y)) MacText.format .plain .checked bootArgs
      (bootCalls none) bootMachine (fun extIface leases revision own looked listed first => by
        cases looked
        cases listed
        cases first
        decide)).2 _ (congrArg Prod.fst started)
  cases Option.some.inj net
  cases Except.ok.inj known
  refine ⟨?_, env, read, restores⟩
  rw [started]
  decide

section Restart
variable {A : Type} [DecidableEq A] [Inhabited A] (equal : Addr A → Addr A → Bool) (formatMac : MacAddr6 → String)
variable (crates : TextCrates) (build : Build) (args : Args)

/- A start that may fail at any step, and the end of the process; what others did to the store
before is part of its calls. -/
def boot (m : Machine Ipv4Network LeaseAttrs A) (calls : StartCalls Ipv4Network LeaseAttrs A) :
    Machine Ipv4Network LeaseAttrs A :=
  match main Codec.plain equal formatMac crates build args calls m with
  | (.ok s, m) => { m with host := s.network.released m.host }
  | (.error _, m) => m

/- The file is read as naming the subnet. -/
def NamesSubnet (crates : TextCrates) (sn : Ipv4Network) (path : Path) (disk : Disk) : Prop :=
  ∃ env prev, readFromSubnetEnv disk path = .ok env ∧ prevSubnet crates env = .ok (some prev) ∧
    prev.network = sn.network ∧ prev.prefixLen = sn.prefixLen

/-- When the start takes its snapshot, the node's entry is there and its only one, it is listed,
and its subnet is one of the configured range. -/
structure EntryKept (build : Build) (ip : Ipv4Addr) (sn : Ipv4Network) (m : Machine Ipv4Network LeaseAttrs A)
    (calls : StartCalls Ipv4Network LeaseAttrs A) : Prop where
  address : ∀ extIface, lookupExtIface calls.gateway = .ok extIface → extIface.ifaceAddr = ip
  alive : ∃ kv ∈ ((calls.registration.attempts 0).before.foldl (interfere Codec.plain) m.host.db).kvs,
    kv.value.publicIp = ip ∧ ((calls.registration.attempts 0).read.ttl kv).isSome = true
  alone : ∀ kv ∈ ((calls.registration.attempts 0).before.foldl (interfere Codec.plain) m.host.db).kvs,
    kv.value.publicIp = ip → kv.key = sn
  fits : ∀ config, getNetworkConfig build calls.registration.stored = .ok config →
    ∀ lease : Lease, lease.subnet = sn → isReusable config lease = .ok true

/- So it is for a start that succeeds. -/
def KeptIfStarted (ip : Ipv4Addr) (sn : Ipv4Network) (m : Machine Ipv4Network LeaseAttrs A)
    (calls : StartCalls Ipv4Network LeaseAttrs A) : Prop :=
  ∀ s after, main Codec.plain equal formatMac crates build args calls m = (.ok s, after) → EntryKept build ip sn m calls

variable {equal formatMac crates build args} {m : Machine Ipv4Network LeaseAttrs A} {ip : Ipv4Addr} {sn : Ipv4Network}
variable {calls : StartCalls Ipv4Network LeaseAttrs A} {s : Started} {after : Machine Ipv4Network LeaseAttrs A}

theorem restartReuses (kept : EntryKept build ip sn m calls)
    (started : main Codec.plain equal formatMac crates build args calls m = (.ok s, after)) :
    s.network.lease.subnet = sn ∧ sn.prefixLen ≤ 30 := by
  obtain ⟨backend, _, ready, registered, _, _⟩ := mainStarted started
  obtain ⟨looked, _, got⟩ := prepared ready
  obtain ⟨attrs, advertises, acquired⟩ := networkAcquired got registered
  obtain ⟨config, choice, _, accepted, chosen, subnet, _⟩ := acquiredChoice acquired
  obtain ⟨leases, revision, read, chose⟩ := decided chosen
  have address : attrs.publicIp = ip := (advertisesAddress advertises).trans (kept.address _ looked)
  rw [address] at chose
  -- the first lease with the node's address is the one of its entry
  have own : ∀ lease, leases.find? (fun it => it.attrs.publicIp = ip) = some lease → lease.subnet = sn := by
    intro lease first
    obtain ⟨kv, stored, key, value⟩ := plainStored read (List.mem_of_find?_eq_some first)
    have mine : lease.attrs.publicIp = ip := by simpa using List.find?_some first
    exact key.trans (kept.alone kv stored (value ▸ mine))
  rw [subnet]
  cases choice with
  | reuse lease =>
    obtain ⟨first, fits⟩ := choseReuse chose
    obtain ⟨subnetMin, subnetMax, range⟩ := acceptedRange accepted
    have same := own lease first
    exact ⟨same, same ▸ Nat.le_trans (Nat.le_of_eq ((reusableIff range).mp fits).2.2) range.lenHigh⟩
  | create sn' =>
    obtain ⟨kv, stored, mine, answered⟩ := kept.alive
    obtain ⟨lease, listed, _, value⟩ := plainListed read answered stored
    cases first : leases.find? (fun it => it.attrs.publicIp = ip) with
    | none => exact absurd (value ▸ mine) (by simpa using List.find?_eq_none.mp first lease listed)
    | some old =>
      have unfit := (choseCreate chose).2 old first
      rw [kept.fits config accepted old (own old first)] at unfit
      cases unfit

theorem bootNames (canonical : sn.Canonical) (kept : KeptIfStarted equal formatMac crates build args ip sn m calls)
    (names : NamesSubnet crates sn args.subnetFile m.disk) :
    NamesSubnet crates sn args.subnetFile (boot equal formatMac crates build args m calls).disk := by
  unfold boot
  rcases started : main Codec.plain equal formatMac crates build args calls m with ⟨stop | s, after⟩
  · have same : after.disk args.subnetFile = m.disk args.subnetFile := mainFailed started
    simpa only [NamesSubnet, readFromSubnetEnv, same] using names
  · obtain ⟨subnet, short⟩ := restartReuses (kept s after started) started
    obtain ⟨env, network, mtu, read, _, _, restores⟩ := startedFile (subnet ▸ canonical) (subnet ▸ short) started
    obtain ⟨prev, parsed, net, length⟩ := restores.subnet
    exact ⟨env, prev, read, parsed, subnet ▸ net, subnet ▸ length⟩

theorem restartsKeepSubnet {starts : List (StartCalls Ipv4Network LeaseAttrs A)} (canonical : sn.Canonical)
    (names : NamesSubnet crates sn args.subnetFile m.disk)
    (kept : Along (boot equal formatMac crates build args) (KeptIfStarted equal formatMac crates build args ip sn) m starts) :
    NamesSubnet crates sn args.subnetFile (run (boot equal formatMac crates build args) m starts).disk ∧
      Along (boot equal formatMac crates build args) (fun m calls => ∀ s after,
        main Codec.plain equal formatMac crates build args calls m = (.ok s, after) → s.network.lease.subnet = sn) m starts :=
  ⟨@runInvariant _ _ _ (KeptIfStarted equal formatMac crates build args ip sn)
      (fun m : Machine Ipv4Network LeaseAttrs A => NamesSubnet crates sn args.subnetFile m.disk) _ _
      (fun _ _ names kept => bootNames canonical kept names) names kept,
    alongMono (fun _ _ kept s after started => (restartReuses (kept s after started) started).1) kept⟩

end Restart

private theorem bootedKept {m : Machine Ipv4Network LeaseAttrs Unit} (db : m.host.db = bootStore.put Codec.plain (bootEntry 1)) :
    EntryKept .checked 0xC0A80002 (cidr 0x0A000004 30) m (bootCalls none) where
  address := by
    intro extIface looked
    cases looked
    rfl
  alive := by
    rw [db]
    exact ⟨bootEntry 1, by decide, rfl, rfl⟩
  alone := by
    rw [db]
    decide
  fits := by
    intro config accepted lease same
    cases Except.ok.inj ((smallConfigAccepted .checked).symm.trans accepted)
    rw [isReusable, same]
    decide

private theorem bootUnconnected {m : Machine Ipv4Network LeaseAttrs Unit} {message : String} : ∃ stop,
    main Codec.plain (fun x y => decide (x = y)) MacText.format .plain .checked bootArgs (bootCalls (some message)) m =
      (.error stop, m) := by
  unfold main
  split
  · exact ⟨_, rfl⟩
  · rename_i ready
    simp only [prepare, bindOk] at ready
    obtain ⟨_, _, _, _, _, _, _, connected, _⟩ := ready
    cases connected

private theorem bootAgain : udpRegisterNetwork Codec.plain .checked 9 (.ok smallConfig) (bootCalls none).registration.attempts
    (bootSetup 8) bootIface smallAccepted (bootStore.put Codec.plain (bootEntry 1)) =
      (.ok (bootNetwork 8), (bootStore.put Codec.plain (bootEntry 1)).put Codec.plain (bootEntry 1)) := by decide

/- The second start does not reach etcd, and the third has the lease of the first. -/
theorem thirdStartKeeps : ∃ m : Machine Ipv4Network LeaseAttrs Unit,
    let starts := [bootCalls (some "connection refused"), bootCalls none]
    NamesSubnet .plain (cidr 0x0A000004 30) bootPath
        (run (boot (fun x y => decide (x = y)) MacText.format .plain .checked bootArgs) m starts).disk ∧
      ∃ s after, main Codec.plain (fun x y => decide (x = y)) MacText.format .plain .checked bootArgs (bootCalls none)
          (boot (fun x y => decide (x = y)) MacText.format .plain .checked bootArgs m (bootCalls (some "connection refused"))) =
        (.ok s, after) ∧ s.network.lease.subnet = cidr 0x0A000004 30 := by
  obtain ⟨disk, started⟩ := bootStarted
  have booted := congrArg (fun x : Res Started × Machine Ipv4Network LeaseAttrs Unit => x.2.disk) started
  obtain ⟨env, _, _, read, _, _, restores⟩ := startedFile (by decide) (by decide) started
  obtain ⟨prev, parsed, same⟩ := restores.subnet
  let m : Machine Ipv4Network LeaseAttrs Unit := ⟨disk, (Network.udp (bootNetwork 7)).released
    ({ bootMachine.host with db := bootStore.put Codec.plain (bootEntry 1) }.withTun (bootNetwork 7).tunFile)⟩
  have unchanged : boot (fun x y => decide (x = y)) MacText.format .plain .checked bootArgs m
      (bootCalls (some "connection refused")) = m := by
    obtain ⟨stop, failed⟩ := @bootUnconnected m "connection refused"
    rw [boot, failed]
  obtain ⟨_, third⟩ := @bootStarts m env (some prev) 8 _ read parsed bootAgain
  have kept := @restartsKeepSubnet Unit _ _ (fun x y => decide (x = y)) MacText.format .plain .checked bootArgs m 0xC0A80002
    (cidr 0x0A000004 30) [bootCalls (some "connection refused"), bootCalls none] (by decide) ⟨env, prev, read, parsed, same⟩
    ⟨fun s after again => by obtain ⟨stop, failed⟩ := @bootUnconnected m "connection refused"; simp [failed] at again,
      fun _ _ _ => unchanged.symm ▸ bootedKept rfl, trivial⟩
  refine ⟨m, kept.1, _, _, unchanged.symm ▸ third, kept.2.2.1 _ _ (unchanged.symm ▸ third)⟩

end FlannelNg
