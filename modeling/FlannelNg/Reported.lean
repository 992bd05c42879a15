import FlannelNg.Acquire

/-! What `acquire_lease` reports against what it registered. The lease it returns
goes to the backend and to the renewal loop, so it should be the entry just written. -/
namespace FlannelNg
open Cidr Outcome

section Reported
variable {K V : Type} [DecidableEq K] (codec : Codec K V)

/- The attributes stored for a subnet, as written. -/
def storedValue (subnet : Ipv4Network) (db : Etcd K V) : Option V := (db.get (codec.key subnet)).map KeyValue.value

/- The lease agrees with the entry that the call wrote, with the attributes passed
in and with the expiration the registry reported; renewing it rewrites the entry. -/
structure Reports (attrs : LeaseAttrs) (rpc : WriteRpc) (lease : Lease) (after : Etcd K V) : Prop where
  entry : storedValue codec lease.subnet after = some (codec.toVec lease.attrs)
  passed : lease.attrs = attrs
  expiration : rpc.reported = .ok lease.expiration
  renewed : ∀ again next later, renewLease codec lease again after = (.ok next, later) →
    storedValue codec lease.subnet later = storedValue codec lease.subnet after

variable {codec} {attrs : LeaseAttrs} {rpc : WriteRpc} {lease : Lease} {db after : Etcd K V}

theorem storedPut {subnet value id} :
    storedValue codec subnet (db.put codec ⟨codec.key subnet, value, id⟩) = some value := by
  simp [storedValue, Etcd.getPut]

theorem renewedEntry {again next later} (ok : renewLease codec lease again db = (.ok next, later)) :
    storedValue codec lease.subnet later = some (codec.toVec lease.attrs) := by
  unfold renewLease at ok
  cases written : updateSubnet codec lease.subnet lease.attrs again db with
  | mk result store =>
    rw [written] at ok
    cases result with
    | error stop => simp [Except.map] at ok
    | ok exp =>
      obtain ⟨_, rfl⟩ := Prod.mk.inj ok
      obtain ⟨_, id, rfl⟩ := updated written
      exact storedPut

theorem reportsOfParts {id} (put : after = db.put codec ⟨codec.key lease.subnet, codec.toVec attrs, id⟩)
    (passed : lease.attrs = attrs) (expiration : rpc.reported = .ok lease.expiration) :
    Reports codec attrs rpc lease after := by
  have entry : storedValue codec lease.subnet after = some (codec.toVec lease.attrs) := by
    rw [put, passed]
    exact storedPut
  exact ⟨entry, passed, expiration, fun again next later ok => (renewedEntry ok).trans entry.symm⟩

theorem committedReports {choice} (ok : commitChoice codec attrs rpc choice db = (.ok lease, after)) :
    Reports codec attrs rpc lease after ↔
      ∀ old, choice = .reuse old → old.attrs = attrs ∧ rpc.reported = .ok old.expiration := by
  obtain ⟨exp, reported, made, id, put⟩ := committed ok
  cases choice with
  | create sn =>
    cases made
    exact ⟨fun _ old different => by contradiction, fun _ => reportsOfParts put rfl reported⟩
  | reuse old =>
    cases made
    constructor
    · rintro reports _ ⟨⟩
      exact ⟨reports.passed, reports.expiration⟩
    · intro fresh
      obtain ⟨passed, expiration⟩ := fresh old rfl
      exact reportsOfParts put passed expiration

theorem acquireReportsIff {build fuel stored config attempts} (accepted : getNetworkConfig build stored = .ok config)
    (ok : acquireLease codec build fuel stored attrs attempts db = (.ok lease, after)) :
    Reports codec attrs (attempts 0).write lease after ↔
      ∀ leases revision old,
        getSubnets codec (attempts 0).read ((attempts 0).before.foldl (interfere codec) db) = .ok (leases, revision) →
        leases.find? (fun it => it.attrs.publicIp = attrs.publicIp) = some old →
        isReusable config old = .ok true →
        old.attrs = attrs ∧ (attempts 0).write.reported = .ok old.expiration := by
  rw [acquireIsFirst accepted] at ok
  obtain ⟨choice, chosen, written⟩ := tried ok
  obtain ⟨leases, revision, read, chose⟩ := decided chosen
  rw [committedReports written]
  constructor
  · intro fresh leases' revision' old read' first fits
    rw [read] at read'
    cases Except.ok.inj read'
    refine fresh old ?_
    cases choice with
    | create sn =>
      have unfit := (choseCreate chose).2 old first
      rw [fits] at unfit
      contradiction
    | reuse lease =>
      have same := (choseReuse chose).1
      rw [first] at same
      cases same
      rfl
  · rintro fresh old rfl
    obtain ⟨first, fits⟩ := choseReuse chose
    exact fresh leases revision old read first fits

end Reported

section Examples

/- A node that restarts with a new VTEP MAC while its old entry is still stored. -/
private def peer (mac : String) : LeaseAttrs := {
  publicIp := 0x01010101
  backendType := some "vxlan"
  backendData := some (.obj [("VNI", .num 1), ("VtepMAC", .str mac)]) }

private def oldEntry : Etcd Ipv4Network LeaseAttrs :=
  Etcd.empty.put Codec.plain ⟨cidr 0x0A000004 30, peer "aa", 5⟩

private def quietAttempt (_ : Nat) : Attempt Ipv4Network LeaseAttrs :=
  { read := ReadRpc.quiet 100 0, pick := 0, write := WriteRpc.quiet 7 0 }

private def freshAttempt (_ : Nat) : Attempt Ipv4Network LeaseAttrs :=
  { read := ReadRpc.quiet 86400 0, pick := 0, write := WriteRpc.quiet 7 0 }

private def snapshotLease (mac : String) (secs : Nat) : Lease := {
  enableIpv4 := true
  subnet := cidr 0x0A000004 30
  enableIpv6 := false
  ipv6Subnet := none
  attrs := peer mac
  expiration := secs * SystemTime.nanos }

private def renewedEntryStore (mac : String) : Etcd Ipv4Network LeaseAttrs :=
  oldEntry.put Codec.plain ⟨cidr 0x0A000004 30, peer mac, 7⟩

theorem staleLeaseReturned :
    acquireLease Codec.plain .checked 1 (.ok smallConfig) (peer "bb") quietAttempt oldEntry =
      (.ok (snapshotLease "aa" 100), renewedEntryStore "bb") ∧
    ¬Reports Codec.plain (peer "bb") (WriteRpc.quiet 7 0) (snapshotLease "aa" 100) (renewedEntryStore "bb") :=
  ⟨by decide, fun reports => absurd reports.passed (by decide)⟩

/- A node without an entry, and one whose entry has the attributes and a whole day left. -/
theorem createdLeaseReported :
    (acquireLease Codec.plain .checked 5 (.ok smallConfig) (peer "bb") quietAttempt Etcd.empty =
        (.ok (snapshotLease "bb" 86400), Etcd.empty.put Codec.plain ⟨cidr 0x0A000004 30, peer "bb", 7⟩) ∧
      Reports Codec.plain (peer "bb") (quietAttempt 0).write (snapshotLease "bb" 86400)
        (Etcd.empty.put Codec.plain ⟨cidr 0x0A000004 30, peer "bb", 7⟩)) ∧
    acquireLease Codec.plain .checked 5 (.ok smallConfig) (peer "aa") freshAttempt oldEntry =
        (.ok (snapshotLease "aa" 86400), renewedEntryStore "aa") ∧
      Reports Codec.plain (peer "aa") (freshAttempt 0).write (snapshotLease "aa" 86400) (renewedEntryStore "aa") := by
  have created : acquireLease Codec.plain .checked 5 (.ok smallConfig) (peer "bb") quietAttempt Etcd.empty =
      (.ok (snapshotLease "bb" 86400), Etcd.empty.put Codec.plain ⟨cidr 0x0A000004 30, peer "bb", 7⟩) := by
    decide
  have reused : acquireLease Codec.plain .checked 5 (.ok smallConfig) (peer "aa") freshAttempt oldEntry =
      (.ok (snapshotLease "aa" 86400), renewedEntryStore "aa") := by
    decide
  refine ⟨⟨created, (acquireReportsIff (smallConfigAccepted .checked) created).mpr ?_⟩, reused,
    (acquireReportsIff (smallConfigAccepted .checked) reused).mpr ?_⟩
  · intro leases revision old read first
    cases Except.ok.inj read
    cases first
  · intro leases revision old read first fits
    cases Except.ok.inj read
    cases Option.some.inj first
    exact ⟨by decide, by decide⟩

end Examples
end FlannelNg
