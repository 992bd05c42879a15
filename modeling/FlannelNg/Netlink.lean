import FlannelNg.Lease

/-! The kernel tables that backends set over netlink: at most one route for a
destination, one ARP entry for an address and one FDB entry for a MAC. -/
namespace FlannelNg
open Cidr Outcome

abbrev MacAddr6 := BitVec 48

structure Route where
  linkIndex : Nat := 0
  scope : Nat := 0
  dst : Option Ipv4Network := none
  gw : Option Ipv4Addr := none
  flags : Nat := 0
  deriving DecidableEq, Repr

def rtScopeUniverse : Nat := 0
def rtnhFOnlink : Nat := 4

/-- Each installed route stands under its own destination. -/
structure RouteTable where
  route : Option Ipv4Network → Option Route
  filed : ∀ dst r, route dst = some r → r.dst = dst

namespace RouteTable

def empty : RouteTable := ⟨fun _ => none, fun _ _ => nofun⟩

def install (t : RouteTable) (r : Route) : RouteTable where
  route := Function.update t.route r.dst (some r)
  filed := by
    intro dst r' found
    rw [Function.update_apply] at found
    split at found
    · rename_i same
      rw [same, Option.some.inj found]
    · exact t.filed dst r' found

def erase (t : RouteTable) (dst : Option Ipv4Network) : RouteTable where
  route := Function.update t.route dst none
  filed := by
    intro dst' r found
    rw [Function.update_apply] at found
    split at found
    · contradiction
    · exact t.filed dst' r found

def routeListFiltered (t : RouteTable) (dst : Option Ipv4Network) : List Route := (t.route dst).toList

/- A route is deleted that has the destination, gateway and link of the given one. -/
def routeDel (t : RouteTable) (r : Route) : Res RouteTable :=
  if (t.route r.dst).any (fun old => old.gw = r.gw && old.linkIndex = r.linkIndex) then .ok (t.erase r.dst)
  else .error (.bail "No such process")

def routeAdd (t : RouteTable) (r : Route) : Res RouteTable :=
  if (t.route r.dst).isSome then .error (.bail "File exists") else .ok (t.install r)

def routeReplace (t : RouteTable) (r : Route) : RouteTable := t.install r

def hop (t : RouteTable) (s : Ipv4Network) : Option (Option Ipv4Addr × Nat) :=
  (t.route (some s)).map (fun r => (r.gw, r.linkIndex))

variable {t : RouteTable} {r : Route} {s : Ipv4Network}

theorem hopInstall (dst : r.dst = some s) : (t.install r).hop = Function.update t.hop s (some (r.gw, r.linkIndex)) := by
  funext k
  by_cases same : k = s
  · simp [hop, install, dst, same]
  · simp [hop, install, dst, same]

theorem hopErase : (t.erase (some s)).hop = Function.update t.hop s none := by
  funext k
  by_cases same : k = s
  · simp [hop, erase, same]
  · simp [hop, erase, same]

end RouteTable

structure Neigh where
  linkIndex : Nat
  family : Nat := 0
  state : Nat
  type_ : Nat := 0
  flags : Nat := 0
  ip : Ipv4Addr
  hardwareAddr : MacAddr6
  deriving DecidableEq, Repr

def nudPermanent : Nat := 0x80
def rtnUnicast : Nat := 1
def afBridge : Nat := 7
def ntfSelf : Nat := 2

structure Kernel where
  routes : RouteTable
  arp : Nat × Ipv4Addr → Option MacAddr6
  fdb : Nat × MacAddr6 → Option Ipv4Addr

namespace Kernel

def empty : Kernel := ⟨.empty, fun _ => none, fun _ => none⟩

def neighSet (k : Kernel) (n : Neigh) : Kernel :=
  if n.family = afBridge then { k with fdb := Function.update k.fdb (n.linkIndex, n.hardwareAddr) (some n.ip) }
  else { k with arp := Function.update k.arp (n.linkIndex, n.ip) (some n.hardwareAddr) }

end Kernel

/- What a netlink call gives that fails with an error of its own, or else is done. -/
def answer {α : Type} (failure : Option String) (done : Res α) : Res α :=
  match failure with
  | some message => .error (.bail message)
  | none => done

def lift {α : Type} : Except String α → Res α
  | .ok a => .ok a
  | .error message => .error (.bail message)

@[simp] theorem answerOk {α : Type} {failure : Option String} {done : Res α} {a : α} :
    answer failure done = .ok a ↔ failure = none ∧ done = .ok a := by
  cases failure <;> simp [answer]

@[simp] theorem liftOk {α : Type} {x : Except String α} {a : α} : lift x = .ok a ↔ x = .ok a := by
  cases x <;> simp [lift]

end FlannelNg
