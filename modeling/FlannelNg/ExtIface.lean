import FlannelNg.Links
import FlannelNg.Lib.Dotted

/-! The interface of the default route and the address of it by which other nodes reach
this one. Its addresses are listed with the link-local ones last. -/
namespace FlannelNg
open Cidr Outcome

namespace Ipv4

def broadcast : Ipv4Addr := 0xFFFFFFFF

def isUnspecified (ip : Ipv4Addr) : Bool := ip = 0
def isLoopback (ip : Ipv4Addr) : Bool := octet ip 3 = 127
def isMulticast (ip : Ipv4Addr) : Bool := 224 ≤ octet ip 3 ∧ octet ip 3 ≤ 239
def isLinkLocal (ip : Ipv4Addr) : Bool := octet ip 3 = 169 ∧ octet ip 2 = 254

/- An address that a node may be reached by. -/
def isUsable (ip : Ipv4Addr) : Bool := ip ≠ broadcast ∧ !isUnspecified ip ∧ !isLoopback ip ∧ !isMulticast ip

end Ipv4

open Ipv4

section ExtIface
variable {A : Type}

/-- What the netlink calls answer. -/
structure GatewayCalls (A : Type) where
  routeList : Except String (List Route)
  linkByIndex : Nat → Except String (Option Link)
  addrList : Nat → Except String (List (Addr A))

def isDefaultRoute (route : Route) : Bool := route.dst = none ∨ route.dst = some (cidr 0 0)

def getDefaultGatewayInterface (calls : GatewayCalls A) : Res (Option Interface) := do
  let routes ← lift calls.routeList
  match routes.find? isDefaultRoute with
  | none => return none
  | some route =>
    if route.linkIndex = 0 then .error (.bail "Found default route but could not determine interface")
    else do
      let link ← lift (calls.linkByIndex route.linkIndex)
      let link ← okOr "link not found" link
      return some {
        index := link.linkAttrs.index
        mtu := link.linkAttrs.mtu
        name := link.linkAttrs.name }

/- The loop over the listed addresses: the routable ones and the link-local ones. -/
def sortAddrs : (addrList : List (Addr A)) → (addrs ll : List Ipv4Addr) → List Ipv4Addr × List Ipv4Addr
  | [], addrs, ll => (addrs, ll)
  | addr :: rest, addrs, ll =>
    match addr.ipnet.ip with
    | .v6 _ => sortAddrs rest addrs ll
    | .v4 ip =>
      if ip ≠ broadcast ∧ !isUnspecified ip ∧ !isLoopback ip ∧ !isMulticast ip ∧ !isLinkLocal ip then
        sortAddrs rest (addrs ++ [ip]) ll
      else if isLinkLocal ip then sortAddrs rest addrs (ll ++ [ip])
      else sortAddrs rest addrs ll

def getIfaceAddrs (calls : GatewayCalls A) (extIface : Interface) : Res (List Ipv4Addr) := do
  let addrList ← lift (calls.addrList extIface.index)
  let (addrs, ll) := sortAddrs addrList [] []
  let addrs := if !ll.isEmpty then addrs ++ ll else addrs
  if addrs.isEmpty then .error (.bail ("Could not find any valid address on interface " ++ extIface.name))
  else return addrs

/- `pop` takes the last address. -/
def lookupExtIface (calls : GatewayCalls A) : Res ExternalInterface := do
  match ← getDefaultGatewayInterface calls with
  | none => .error (.bail "Could not find default gateway interface")
  | some extIface =>
    let addrs ← getIfaceAddrs calls extIface
    let ifaceAddr ← unwrap addrs.getLast?
    return { iface := extIface, ifaceAddr, extAddr := some ifaceAddr }

def ipv4Addrs (addrList : List (Addr A)) : List Ipv4Addr :=
  addrList.filterMap fun addr =>
    match addr.ipnet.ip with
    | .v4 ip => some ip
    | .v6 _ => none

/- Usable, and not link-local. -/
def isRoutable (ip : Ipv4Addr) : Bool := isUsable ip && !isLinkLocal ip

/-- No address where none is usable; else a usable one, which is link-local only where all are. -/
structure PrefersRoutable (ips : List Ipv4Addr) (x : Res ExternalInterface) : Prop where
  fails : (∀ ip ∈ ips, isUsable ip = false) → ∃ message, x = .error (.bail message)
  chosen : (∃ ip ∈ ips, isUsable ip = true) → ∃ ext, x = .ok ext ∧ ext.ifaceAddr ∈ ips ∧ isUsable ext.ifaceAddr = true ∧
    (isLinkLocal ext.ifaceAddr = true → ∀ ip ∈ ips, isUsable ip = true → isLinkLocal ip = true)

variable {calls : GatewayCalls A} {addrList : List (Addr A)} {addrs ll : List Ipv4Addr} {iface : Interface} {ip : Ipv4Addr}

theorem linkLocalUsable (ll : isLinkLocal ip = true) : isUsable ip = true := by
  obtain ⟨first, _⟩ : octet ip 3 = 169 ∧ octet ip 2 = 254 := of_decide_eq_true ll
  have notAll : ip ≠ broadcast := by
    rintro rfl
    simp [octet, broadcast] at first
  have notZero : ip ≠ 0#32 := by
    rintro rfl
    simp [octet] at first
  simp [isUsable, isUnspecified, isLoopback, isMulticast, notAll, notZero, first]

theorem routableIff : isRoutable ip = true ↔
    ip ≠ broadcast ∧ !isUnspecified ip ∧ !isLoopback ip ∧ !isMulticast ip ∧ !isLinkLocal ip := by
  simp [isRoutable, isUsable, and_assoc]

theorem sortedAddrs : sortAddrs addrList addrs ll =
    (addrs ++ (ipv4Addrs addrList).filter isRoutable, ll ++ (ipv4Addrs addrList).filter isLinkLocal) := by
  induction addrList generalizing addrs ll with
  | nil => simp [sortAddrs, ipv4Addrs]
  | cons addr rest ih =>
    unfold sortAddrs
    cases address : addr.ipnet.ip with
    | v6 a =>
      have skipped : ipv4Addrs (addr :: rest) = ipv4Addrs rest := by simp [ipv4Addrs, address]
      rw [skipped]
      exact ih
    | v4 ip =>
      have taken : ipv4Addrs (addr :: rest) = ip :: ipv4Addrs rest := by simp [ipv4Addrs, address]
      simp only [taken, ← routableIff]
      split
      · rename_i routable
        have notLocal : isLinkLocal ip = false := by simpa using (Bool.and_eq_true_iff.mp routable).2
        rw [ih, List.filter_cons_of_pos routable, List.filter_cons_of_neg (by simp [notLocal]), List.append_assoc]
        rfl
      · rename_i unroutable
        split
        · rename_i isLocal
          rw [ih, List.filter_cons_of_neg unroutable, List.filter_cons_of_pos isLocal, List.append_assoc]
          rfl
        · rename_i notLocal
          rw [ih, List.filter_cons_of_neg unroutable, List.filter_cons_of_neg notLocal]

/- The usable addresses in the order of their list, of which the last one is taken. -/
def addrChoices (ips : List Ipv4Addr) : List Ipv4Addr := ips.filter isRoutable ++ ips.filter isLinkLocal

theorem ifaceAddrs (listed : calls.addrList iface.index = .ok addrList) : getIfaceAddrs calls iface =
    if (addrChoices (ipv4Addrs addrList)).isEmpty then
      .error (.bail ("Could not find any valid address on interface " ++ iface.name))
    else .ok (addrChoices (ipv4Addrs addrList)) := by
  have joined : (if !((ipv4Addrs addrList).filter isLinkLocal).isEmpty then
      (ipv4Addrs addrList).filter isRoutable ++ (ipv4Addrs addrList).filter isLinkLocal
      else (ipv4Addrs addrList).filter isRoutable) = addrChoices (ipv4Addrs addrList) := by
    cases none_ : (ipv4Addrs addrList).filter isLinkLocal with
    | nil => simp [addrChoices, none_]
    | cons ip rest => simp [addrChoices, none_]
  simp only [getIfaceAddrs, listed, lift, bind, Except.bind, sortedAddrs, List.nil_append, joined]
  rfl

theorem addrChoicesMem {ips : List Ipv4Addr} : ip ∈ addrChoices ips ↔ ip ∈ ips ∧ isUsable ip = true := by
  rw [addrChoices, List.mem_append, List.mem_filter, List.mem_filter, ← and_or_left]
  refine and_congr_right fun _ => ?_
  cases isLocal : isLinkLocal ip with
  | true => simp [linkLocalUsable isLocal]
  | false => simp [isRoutable, isLocal]

/- A link-local address is taken before a routable one. -/
theorem lastChoice {ips : List Ipv4Addr} (last : (addrChoices ips).getLast? = some ip) :
    isLinkLocal ip = true ↔ ∃ ip' ∈ ips, isLinkLocal ip' = true := by
  cases locals : ips.filter isLinkLocal with
  | nil =>
    have none_ : ∀ ip' ∈ ips, ¬isLinkLocal ip' = true := List.filter_eq_nil_iff.mp locals
    have mem : ip ∈ ips := (addrChoicesMem.mp (List.mem_of_getLast? last)).1
    exact iff_of_false (none_ ip mem) (by simpa using none_)
  | cons first rest =>
    rw [addrChoices, locals, List.getLast?_append_cons] at last
    have isLast : ip ∈ ips.filter isLinkLocal := by
      rw [locals]
      exact List.mem_of_getLast? last
    obtain ⟨mem, isLocal⟩ := List.mem_filter.mp isLast
    exact iff_of_true isLocal ⟨ip, mem, isLocal⟩

theorem lookedUpIface (gateway : getDefaultGatewayInterface calls = .ok (some iface))
    (listed : calls.addrList iface.index = .ok addrList) : lookupExtIface calls =
      match (addrChoices (ipv4Addrs addrList)).getLast? with
      | none => .error (.bail ("Could not find any valid address on interface " ++ iface.name))
      | some ip => .ok { iface, ifaceAddr := ip, extAddr := some ip } := by
  simp only [lookupExtIface, gateway, ifaceAddrs listed, bind, Except.bind]
  cases found : addrChoices (ipv4Addrs addrList) with
  | nil => rfl
  | cons ip rest =>
    have last : (ip :: rest).getLast? = some ((ip :: rest).getLast (by simp)) := List.getLast?_eq_some_getLast _
    rw [last]
    rfl

theorem prefersRoutable (gateway : getDefaultGatewayInterface calls = .ok (some iface))
    (listed : calls.addrList iface.index = .ok addrList) :
    PrefersRoutable (ipv4Addrs addrList) (lookupExtIface calls) ↔
      ¬((∃ ip ∈ ipv4Addrs addrList, isRoutable ip = true) ∧ ∃ ip ∈ ipv4Addrs addrList, isLinkLocal ip = true) := by
  rw [lookedUpIface gateway listed]
  cases last : (addrChoices (ipv4Addrs addrList)).getLast? with
  | none =>
    have empty : addrChoices (ipv4Addrs addrList) = [] := List.getLast?_eq_none_iff.mp last
    have unusable : ∀ ip ∈ ipv4Addrs addrList, ¬isUsable ip = true := by
      intro ip mem usable
      have choice : ip ∈ addrChoices (ipv4Addrs addrList) := addrChoicesMem.mpr ⟨mem, usable⟩
      rw [empty] at choice
      contradiction
    refine iff_of_true ⟨fun _ => ⟨_, rfl⟩, ?_⟩ ?_
    · rintro ⟨ip, mem, usable⟩
      exact absurd usable (unusable ip mem)
    · rintro ⟨_, ip, mem, isLocal⟩
      exact unusable ip mem (linkLocalUsable isLocal)
  | some ip =>
    obtain ⟨mem, usable⟩ := addrChoicesMem.mp (List.mem_of_getLast? last)
    have decides := lastChoice last
    constructor
    · rintro prefers ⟨⟨other, mem', routable⟩, isLocal⟩
      obtain ⟨ext, is, _, _, onlyLocal⟩ := prefers.chosen ⟨ip, mem, usable⟩
      cases Except.ok.inj is
      obtain ⟨usable', notLocal⟩ := Bool.and_eq_true_iff.mp routable
      rw [onlyLocal (decides.mpr isLocal) other mem' usable'] at notLocal
      contradiction
    · intro oneKind
      refine ⟨fun unusable => ?_, fun _ => ⟨_, rfl, mem, usable, fun isLocal other mem' usable' => ?_⟩⟩
      · rw [unusable ip mem] at usable
        contradiction
      · by_contra notLocal
        have routable : isRoutable other = true := by
          simp [isRoutable, usable', (Bool.not_eq_true _).mp notLocal]
        exact oneKind ⟨⟨other, mem', routable⟩, decides.mp isLocal⟩

end ExtIface

private def gatewayCalls (addrs : List (Addr Unit)) : GatewayCalls Unit where
  routeList := .ok [{ linkIndex := 2, gw := some 0xC0A80001 }]
  linkByIndex := fun _ => .ok (some ⟨{ index := 2, name := "eth0", mtu := 1500 }, .other "device"⟩)
  addrList := fun _ => .ok addrs

private def bothKinds : List (Addr Unit) := [⟨.v4 (cidr 0xC0A80002 24), ()⟩, ⟨.v4 (cidr 0xA9FE0001 16), ()⟩]

private def localIface : ExternalInterface where
  iface := ⟨2, 1500, "eth0"⟩
  ifaceAddr := 0xA9FE0001
  extAddr := some 0xA9FE0001

/- 169.254.0.1 is taken before 192.168.0.2. -/
theorem linkLocalTaken : lookupExtIface (gatewayCalls bothKinds) = .ok localIface ∧
    ¬PrefersRoutable (ipv4Addrs bothKinds) (lookupExtIface (gatewayCalls bothKinds)) := by
  have taken : lookupExtIface (gatewayCalls bothKinds) = .ok localIface := rfl
  refine ⟨taken, fun prefers => ?_⟩
  obtain ⟨ext, is, _, _, onlyLocal⟩ := prefers.chosen ⟨0xC0A80002, by decide, by decide⟩
  cases Except.ok.inj (taken.symm.trans is)
  have isLocal : isLinkLocal 0xC0A80002 = true := onlyLocal (by decide) _ (by decide) (by decide)
  exact absurd isLocal (by decide)

private def manyKinds : List (Addr Unit) :=
  [⟨.v4 (cidr 0x7F000001 8), ()⟩, ⟨.v4 (cidr 0xC0A80002 24), ()⟩, ⟨.v6 ⟨0xFE800000000000000000000000000001, 10, by decide⟩, ()⟩,
    ⟨.v4 (cidr 0x0A010203 8), ()⟩, ⟨.v4 (cidr 0xE0000005 32), ()⟩, ⟨.v4 (cidr 0 0), ()⟩]

/- Of the addresses of all kinds but link-local ones the last that is usable is taken. -/
theorem routableTaken : PrefersRoutable (ipv4Addrs manyKinds) (lookupExtIface (gatewayCalls manyKinds)) ∧
    (lookupExtIface (gatewayCalls manyKinds)).map ExternalInterface.ifaceAddr = .ok 0x0A010203 := by
  refine ⟨(@prefersRoutable Unit (gatewayCalls manyKinds) manyKinds ⟨2, 1500, "eth0"⟩ rfl rfl).mpr ?_, rfl⟩
  rintro ⟨_, ip, mem, isLocal⟩
  have listed : ipv4Addrs manyKinds = [0x7F000001, 0xC0A80002, 0x0A010203, 0xE0000005, 0] := rfl
  rw [listed] at mem
  simp only [List.mem_cons, List.not_mem_nil, or_false] at mem
  rcases mem with rfl | rfl | rfl | rfl | rfl <;> exact absurd isLocal (by decide)

end FlannelNg
