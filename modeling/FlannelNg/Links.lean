import FlannelNg.Netlink

/-! The links of a host and their addresses as netlink has them, and the interface by
which the host reaches the other nodes. -/
namespace FlannelNg
open Cidr Outcome

inductive IpAddr where
  | v4 (a : Ipv4Addr)
  | v6 (a : BitVec 128)
  deriving DecidableEq, Repr

inductive IpNetwork where
  | v4 (net : Ipv4Network)
  | v6 (net : Ipv6Network)
  deriving DecidableEq, Repr

def IpNetwork.ip : IpNetwork → IpAddr
  | .v4 net => .v4 net.ip
  | .v6 net => .v6 net.ip

/-- An address of a link; `attrs` is what it has besides: its label, its scope and so on. -/
structure Addr (A : Type) where
  ipnet : IpNetwork
  attrs : A
  deriving DecidableEq, Repr

structure LinkAttrs where
  index : Nat := 0
  name : String
  mtu : Nat
  hardwareAddr : Option MacAddr6 := none
  deriving DecidableEq, Repr

structure Vxlan where
  vxlanId : Nat := 0
  vtepDevIndex : Nat := 0
  srcAddr : Option IpAddr := none
  group : Option IpAddr := none
  l2miss : Bool := false
  port : Nat := 0
  gbp : Bool := false
  deriving DecidableEq, Repr

inductive LinkKind where
  | vxlan (vxlan : Vxlan)
  | other (kind : String)
  deriving DecidableEq, Repr

structure Link where
  linkAttrs : LinkAttrs
  linkKind : LinkKind
  deriving DecidableEq, Repr

namespace Link

def asIndex (link : Link) : Nat := link.linkAttrs.index

def kind (link : Link) : String :=
  match link.linkKind with
  | .vxlan _ => "vxlan"
  | .other kind => kind

/- `unwrap_enum!(_, LinkKind::Vxlan)` -/
def asVxlan (link : Link) : Option Vxlan :=
  match link.linkKind with
  | .vxlan vxlan => some vxlan
  | .other _ => none

end Link

structure Interface where
  index : Nat
  mtu : Nat
  name : String
  deriving DecidableEq, Repr

structure ExternalInterface where
  iface : Interface
  ifaceAddr : Ipv4Addr
  ifaceV6Addr : Option (BitVec 128) := none
  extAddr : Option Ipv4Addr := none
  extV6Addr : Option (BitVec 128) := none
  deriving DecidableEq, Repr

end FlannelNg
