import FlannelNg.Etcd

/-! The etcd registry: reading the leases, writing one, and watching them. What an
RPC answers and what the clock shows at that moment are arguments. -/
namespace FlannelNg
open Cidr Outcome

section Registry
variable {K V : Type} [DecidableEq K] (codec : Codec K V)

/- `ttl as u64` -/
def asU64 (ttl : Int) : Nat := (ttl % 2 ^ 64).toNat

def kvToIpLease (kv : KeyValue K V) (ttl : Int) (now : SystemTime) : Res Lease := do
  let (sn4, sn6) ← codec.extractIpAndSubnet kv.key
  let leaseAttrs ← codec.fromSlice kv.value
  let exp ← now.addSecs (asU64 ttl)
  return {
    enableIpv4 := true
    enableIpv6 := sn6.isSome
    subnet := sn4
    ipv6Subnet := sn6
    expiration := exp
    attrs := leaseAttrs }

/- The answers to one read of the registry: the range read itself, and for each
entry its remaining TTL (none when that query fails) and the clock reading. -/
structure ReadRpc (K V : Type) where
  failed : Option String
  ttl : KeyValue K V → Option Int
  clock : KeyValue K V → SystemTime

/- An entry whose TTL query fails is left out. -/
def readLeases (rpc : ReadRpc K V) : List (KeyValue K V) → Res (List Lease)
  | [] => .ok []
  | kv :: rest =>
    match rpc.ttl kv with
    | none => readLeases rpc rest
    | some ttl => do
      let lease ← expect (kvToIpLease codec kv ttl (rpc.clock kv))
      let leases ← readLeases rpc rest
      return lease :: leases

def getSubnets (rpc : ReadRpc K V) (db : Etcd K V) : Res (List Lease × Nat) :=
  match rpc.failed with
  | some message => .error (.bail message)
  | none =>
    if db.kvs.length = 0 then .ok ([], 0)
    else do
      let leases ← readLeases codec rpc db.kvs
      return (leases, db.revision)

def getSubnet (sn : Ipv4Network) (rpc : ReadRpc K V) (db : Etcd K V) : Res (Option (Lease × Nat)) :=
  match rpc.failed with
  | some message => .error (.bail message)
  | none =>
    match db.get (codec.key sn) with
    | none => .ok none
    | some kv =>
      match rpc.ttl kv with
      | none => .error (.bail "lease_time_to_live")
      | some ttl => do
        let lease ← kvToIpLease codec kv ttl (rpc.clock kv)
        return some (lease, db.revision)

/- What becomes of the put or transaction of a write. -/
inductive Answer where
  | answered
  | rejected (message : String)
  | lost (message : String)
  deriving DecidableEq, Repr

/-- The answers to the RPCs of one write: the grant of an etcd lease (its id and
TTL), the put or transaction, and whether a compensating revoke gets through. -/
structure WriteRpc where
  grant : Except String (Int × Int)
  answer : Answer
  revoked : Bool
  now : SystemTime

namespace WriteRpc

def compensate (rpc : WriteRpc) (lease : Int) (db : Etcd K V) : Etcd K V :=
  if rpc.revoked then db.revoke codec lease else db

/- `SystemTime::now().add(Duration::from_secs(lease_resp.ttl() as u64))` -/
def expiration (rpc : WriteRpc) (ttl : Int) : Res SystemTime := rpc.now.addSecs (asU64 ttl)

end WriteRpc

def createSubnet (sn : Ipv4Network) (attrs : LeaseAttrs) (rpc : WriteRpc) (db : Etcd K V) :
    Res SystemTime × Etcd K V :=
  match rpc.grant with
  | .error message => (.error (.bail message), db)
  | .ok (id, ttl) =>
    let txn := db.putIfAbsent codec ⟨codec.key sn, codec.toVec attrs, id⟩
    match rpc.answer with
    | .rejected message => (.error (.bail message), rpc.compensate codec id db)
    | .lost message => (.error (.bail message), rpc.compensate codec id txn.2)
    | .answered =>
      if txn.1 then (rpc.expiration ttl, txn.2)
      else (.error (.bail "txn_resp is not succeeded"), rpc.compensate codec id txn.2)

def updateSubnet (subnet : Ipv4Network) (attrs : LeaseAttrs) (rpc : WriteRpc) (db : Etcd K V) :
    Res SystemTime × Etcd K V :=
  match rpc.grant with
  | .error message => (.error (.bail message), db)
  | .ok (id, ttl) =>
    let put := db.put codec ⟨codec.key subnet, codec.toVec attrs, id⟩
    match rpc.answer with
    | .rejected message => (.error (.bail message), rpc.compensate codec id db)
    | .lost message => (.error (.bail message), rpc.compensate codec id put)
    | .answered => (rpc.expiration ttl, put)

def leasesWatchReset (rpc : ReadRpc K V) (db : Etcd K V) : Res LeaseWatchResult := do
  let (leases, index) ← getSubnets codec rpc db
  return { snapshot := leases, events := [], cursor := index }

/- A watch event with what the TTL query for its entry and the clock answer. -/
structure Delivery (K V : Type) where
  event : Event K V
  ttl : Option Int
  now : SystemTime

def parseSubnetWatchResp (d : Delivery K V) : Res (Option LeaseWatchEvent) := do
  let (sn4, _) ← codec.extractIpAndSubnet d.event.key
  match d.event with
  | .delete _ =>
    return some { lease := { Lease.default d.now with enableIpv4 := true, subnet := sn4 }, eventType := .delete }
  | .put kv =>
    let attrs ← codec.fromSlice kv.value
    match d.ttl with
    | none => .error (.bail "lease_time_to_live")
    | some ttl =>
      if ttl < 0 then return none
      else
        let exp ← d.now.addSecs (asU64 ttl)
        return some {
          lease := { Lease.default d.now with enableIpv4 := true, subnet := sn4, expiration := exp, attrs }
          eventType := .put }

structure WatchResponse (K V : Type) where
  events : List (Delivery K V)
  revision : Nat
  canceled : Bool

/- The events of one response that have a lease event, in order. -/
def parseEvents : List (Delivery K V) → Res (List LeaseWatchEvent)
  | [] => .ok []
  | d :: rest => do
    let subnetEvent ← parseSubnetWatchResp codec d
    let events ← parseEvents rest
    return subnetEvent.toList ++ events

/- The batches sent to the channel, and how the watch ended. -/
def watchSubnets : List (WatchResponse K V) → List (List LeaseWatchResult) × Res Unit
  | [] => ([], .ok ())
  | resp :: rest =>
    if resp.canceled then ([], .ok ())
    else
      match parseEvents codec resp.events with
      | .error stop => ([], .error stop)
      | .ok events =>
        let results := events.map (fun e => { events := [e], cursor := resp.revision : LeaseWatchResult })
        let (sent, ended) := watchSubnets rest
        (if results.isEmpty then sent else results :: sent, ended)

/- A canceled response of a subnet's own watch is skipped. -/
def watchSubnet : List (WatchResponse K V) → List (List LeaseWatchEvent) × Res Unit
  | [] => ([], .ok ())
  | resp :: rest =>
    if resp.canceled then watchSubnet rest
    else
      match parseEvents codec resp.events with
      | .error stop => ([], .error stop)
      | .ok events =>
        let (sent, ended) := watchSubnet rest
        (if events.isEmpty then sent else events :: sent, ended)

end Registry

/- Answers with nothing failing: entries have `ttl` seconds left, grants last a day. -/
def ReadRpc.quiet {K V : Type} (ttl : Int) (now : SystemTime) : ReadRpc K V where
  failed := none
  ttl := fun _ => some ttl
  clock := fun _ => now

def WriteRpc.quiet (id : Int) (now : SystemTime) : WriteRpc where
  grant := .ok (id, 86400)
  answer := .answered
  revoked := true
  now := now

end FlannelNg
