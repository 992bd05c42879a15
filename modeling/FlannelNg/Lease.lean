import FlannelNg.Json
import FlannelNg.Lib.Cidr
import FlannelNg.Lib.Outcome

/-! Leases and their attributes. Time is in nanoseconds since the Unix epoch. -/
namespace FlannelNg
open Cidr (Ipv4Addr Ipv4Network)
open Outcome

abbrev SystemTime := Nat

namespace SystemTime

def nanos : Nat := 10 ^ 9

/- `SystemTime + Duration::from_secs(_)`: seconds beyond an `i64` are a panic. -/
def addSecs (now : SystemTime) (secs : Nat) : Res SystemTime :=
  if now / nanos + secs < 2 ^ 63 then .ok (now + secs * nanos) else .error .panicked

end SystemTime

structure Ipv6Network where
  ip : BitVec 128
  prefixLen : Nat
  valid : prefixLen ≤ 128
  deriving DecidableEq, Repr

structure LeaseAttrs where
  publicIp : Ipv4Addr := 0
  publicIpv6 : Option Ipv6Network := none
  backendType : Option String := none
  backendData : Option Json := none
  deriving DecidableEq, Repr

structure Lease where
  enableIpv4 : Bool
  subnet : Ipv4Network
  enableIpv6 : Bool
  ipv6Subnet : Option Ipv6Network
  attrs : LeaseAttrs
  expiration : SystemTime
  deriving DecidableEq, Repr

/- The default lease expires at the moment it is made. -/
def Lease.default (now : SystemTime) : Lease where
  enableIpv4 := false
  subnet := ⟨0, 0, by omega⟩
  enableIpv6 := false
  ipv6Subnet := none
  attrs := {}
  expiration := now

inductive EventType where
  | put
  | delete
  deriving DecidableEq, Repr

structure LeaseWatchEvent where
  lease : Lease
  eventType : EventType
  deriving DecidableEq, Repr

structure LeaseWatchResult where
  snapshot : List Lease := []
  events : List LeaseWatchEvent := []
  cursor : Nat := 0
  deriving DecidableEq, Repr

end FlannelNg
