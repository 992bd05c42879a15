import FlannelNg.Snapshot
import FlannelNg.SubnetKey

/-! Whether a snapshot and the watch make the same of an entry. Both read key and value in
the same way, but the snapshot keeps the IPv6 part of the key and casts a negative TTL, and
`get_subnets` unwraps what was decoded. -/
namespace FlannelNg
open Cidr Outcome

section Decoders
variable {K V : Type} (codec : Codec K V) (kv : KeyValue K V) (ttl : Option Int) (now : SystemTime)

/- The entry as `get_subnet` decodes it, none for a TTL query that fails. -/
def decodedOne : Res (Option Lease) :=
  match ttl with
  | none => .error (.bail "lease_time_to_live")
  | some ttl => (kvToIpLease codec kv ttl now).map some

/- The entry as `get_subnets` decodes it: without a TTL it is left out. -/
def decodedAmong : Res (Option Lease) :=
  match ttl with
  | none => .ok none
  | some ttl => (expect (kvToIpLease codec kv ttl now)).map some

/- The entry as the watch decodes it. -/
def decodedPut : Res (Option Lease) :=
  (parseSubnetWatchResp codec ⟨.put kv, ttl, now⟩).map (fun e => e.map LeaseWatchEvent.lease)

/- Neither a lease nor a panic. -/
def Rejects (decoded : Res (Option Lease)) : Prop := decoded = .ok none ∨ ∃ message, decoded = .error (.bail message)

/- Both give the same lease, or both reject the entry. -/
def Alike (x y : Res (Option Lease)) : Prop := (∃ lease, x = .ok (some lease) ∧ y = .ok (some lease)) ∨ Rejects x ∧ Rejects y

variable {codec} {kv} {ttl} {now}

theorem readLeasesEntry {rpc : ReadRpc K V} : readLeases codec rpc [kv] =
    (decodedAmong codec kv (rpc.ttl kv) (rpc.clock kv)).map Option.toList := by
  simp only [readLeases, decodedAmong]
  cases rpc.ttl kv with
  | none => rfl
  | some ttl =>
    simp only
    cases expect (kvToIpLease codec kv ttl (rpc.clock kv)) <;> rfl

theorem getSubnetEntry [DecidableEq K] {rpc : ReadRpc K V} {db : Etcd K V} {sn : Ipv4Network} (reached : rpc.failed = none)
    (found : db.get (codec.key sn) = some kv) : getSubnet codec sn rpc db =
      (decodedOne codec kv (rpc.ttl kv) (rpc.clock kv)).map (fun lease => lease.map (fun lease => (lease, db.revision))) := by
  simp only [getSubnet, reached, found, decodedOne]
  cases rpc.ttl kv with
  | none => rfl
  | some ttl =>
    simp only
    cases kvToIpLease codec kv ttl (rpc.clock kv) <;> rfl

theorem panickedApart {x y : Res (Option Lease)} (panicked : x = .error .panicked) : ¬Alike x y := by
  subst panicked
  rintro (⟨lease, left, _⟩ | ⟨gone | ⟨_, failed⟩, _⟩)
  · simp at left
  · simp at gone
  · simp at failed

theorem alikeLeases {x y : Res (Option Lease)} {a b : Lease} (left : x = .ok (some a)) (right : y = .ok (some b)) :
    Alike x y ↔ a = b := by
  subst left right
  constructor
  · rintro (⟨lease, left, right⟩ | ⟨gone | ⟨_, failed⟩, _⟩)
    · exact (Option.some.inj (Except.ok.inj left)).trans (Option.some.inj (Except.ok.inj right)).symm
    · simp at gone
    · simp at failed
  · rintro rfl
    exact .inl ⟨a, rfl, rfl⟩

/-- Key and value are read with a result or an error, never with a panic. -/
structure NeverPanics (codec : Codec K V) : Prop where
  key : ∀ k, (∃ nets, codec.extractIpAndSubnet k = .ok nets) ∨ ∃ message, codec.extractIpAndSubnet k = .error (.bail message)
  value : ∀ v, (∃ attrs, codec.fromSlice v = .ok attrs) ∨ ∃ message, codec.fromSlice v = .error (.bail message)

/- The key has an IPv4 subnet alone, the value has attributes, and a TTL has an end that the clock can show. -/
def PlainLive (codec : Codec K V) (kv : KeyValue K V) (ttl : Option Int) (now : SystemTime) : Prop :=
  ∀ t, ttl = some t → (∃ sn, codec.extractIpAndSubnet kv.key = .ok (sn, none)) ∧
    (∃ attrs, codec.fromSlice kv.value = .ok attrs) ∧ FitsClock now t

theorem malformedEntry (ttl : Option Int) (now : SystemTime) (total : NeverPanics codec) (bad : ¬WellFormedEntry codec kv) :
    (∀ t, ∃ message, kvToIpLease codec kv t now = .error (.bail message)) ∧
      ∃ message, parseSubnetWatchResp codec ⟨.put kv, ttl, now⟩ = .error (.bail message) := by
  rcases total.key kv.key with ⟨nets, key⟩ | ⟨message, key⟩
  · rcases total.value kv.value with ⟨attrs, value⟩ | ⟨message, value⟩
    · exact absurd ⟨nets, attrs, key, value⟩ bad
    · refine ⟨fun t => ⟨message, ?_⟩, message, ?_⟩
      · simp [kvToIpLease, key, value, bind, Except.bind]
      · simp [parseSubnetWatchResp, Event.key, key, value, bind, Except.bind]
  · refine ⟨fun t => ⟨message, ?_⟩, message, ?_⟩
    · simp [kvToIpLease, key, bind, Except.bind]
    · simp [parseSubnetWatchResp, Event.key, key, bind, Except.bind]

theorem unansweredPut (total : NeverPanics codec) : Rejects (decodedPut codec kv none now) := by
  by_cases wellFormed : WellFormedEntry codec kv
  · obtain ⟨nets, attrs, key, value⟩ := wellFormed
    exact .inr ⟨"lease_time_to_live", by simp [decodedPut, parseSubnetWatchResp, Event.key, key, value, bind, Except.bind, Except.map]⟩
  · obtain ⟨message, failed⟩ := (malformedEntry none now total wellFormed).2
    exact .inr ⟨message, by simp [decodedPut, failed, Except.map]⟩

section Readable
variable {sn4 : Ipv4Network} {sn6 : Option Ipv6Network} {attrs : LeaseAttrs} {t : Int}
variable (key : codec.extractIpAndSubnet kv.key = .ok (sn4, sn6)) (value : codec.fromSlice kv.value = .ok attrs)
include key value

/- The watch makes the lease without an IPv6 part, and takes a negative TTL for an entry that is gone. -/
theorem readablePut (i64 : IsI64 t) : decodedPut codec kv (some t) now =
    if t < 0 then .ok none
    else if FitsClock now t then .ok (some (snapshotLeaseOf sn4 none attrs t now)) else .error .panicked := by
  simp only [decodedPut, parseSubnetWatchResp, Event.key, key, value, bind, Except.bind]
  by_cases negative : t < 0
  · rw [if_pos negative, if_pos negative]
    rfl
  · rw [if_neg negative, if_neg negative, addTtl i64]
    by_cases fits : FitsClock now t
    · rw [if_pos fits, if_pos fits]
      rfl
    · rw [if_neg fits, if_neg fits]
      rfl

theorem readableAlike (i64 : IsI64 t) :
    Alike (if FitsClock now t then .ok (some (snapshotLeaseOf sn4 sn6 attrs t now)) else .error .panicked)
      (decodedPut codec kv (some t) now) ↔ sn6 = none ∧ FitsClock now t := by
  rw [readablePut key value i64]
  by_cases fits : FitsClock now t
  · rw [if_pos fits, if_neg (Int.not_lt.mpr fits.1), if_pos fits, alikeLeases rfl rfl]
    constructor
    · intro same
      exact ⟨congrArg Lease.ipv6Subnet same, fits⟩
    · rintro ⟨rfl, _⟩
      rfl
  · rw [if_neg fits]
    exact iff_of_false (panickedApart rfl) (fun both => fits both.2)

end Readable

theorem plainLiveReadable {attrs : LeaseAttrs} {sn4 : Ipv4Network} {sn6 : Option Ipv6Network} {t : Int}
    (key : codec.extractIpAndSubnet kv.key = .ok (sn4, sn6)) (value : codec.fromSlice kv.value = .ok attrs) :
    PlainLive codec kv (some t) now ↔ sn6 = none ∧ FitsClock now t := by
  constructor
  · intro live
    obtain ⟨⟨sn, read⟩, _, fits⟩ := live t rfl
    exact ⟨(Prod.mk.inj (Except.ok.inj (key.symm.trans read))).2, fits⟩
  · rintro ⟨rfl, fits⟩ _ ⟨⟩
    exact ⟨⟨sn4, key⟩, ⟨attrs, value⟩, fits⟩

theorem plainLiveWellFormed {t : Int} (live : PlainLive codec kv (some t) now) : WellFormedEntry codec kv := by
  obtain ⟨⟨sn, key⟩, ⟨attrs, value⟩, _⟩ := live t rfl
  exact ⟨_, attrs, key, value⟩

theorem alikeOneIff (total : NeverPanics codec) (i64 : ∀ t, ttl = some t → IsI64 t) :
    Alike (decodedOne codec kv ttl now) (decodedPut codec kv ttl now) ↔
      ¬WellFormedEntry codec kv ∨ PlainLive codec kv ttl now := by
  cases ttl with
  | none =>
    have rejects : Rejects (decodedOne codec kv none now) := .inr ⟨_, rfl⟩
    exact ⟨fun _ => .inr (fun _ => nofun), fun _ => .inr ⟨rejects, unansweredPut total⟩⟩
  | some t =>
    by_cases wellFormed : WellFormedEntry codec kv
    · obtain ⟨⟨sn4, sn6⟩, attrs, key, value⟩ := id wellFormed
      have one : decodedOne codec kv (some t) now = if FitsClock now t then
          .ok (some (snapshotLeaseOf sn4 sn6 attrs t now)) else .error .panicked := by
        rw [decodedOne, readableLease key value (i64 t rfl)]
        split <;> rfl
      rw [one, readableAlike key value (i64 t rfl), plainLiveReadable key value, or_iff_right (not_not.mpr wellFormed)]
    · obtain ⟨one, message, put⟩ := malformedEntry (some t) now total wellFormed
      obtain ⟨message', one⟩ := one t
      refine iff_of_true (.inr ⟨.inr ⟨message', ?_⟩, .inr ⟨message, ?_⟩⟩) (.inl wellFormed)
      · rw [decodedOne, one]
        rfl
      · rw [decodedPut, put]
        rfl

theorem alikeAmongIff (total : NeverPanics codec) (i64 : ∀ t, ttl = some t → IsI64 t) :
    Alike (decodedAmong codec kv ttl now) (decodedPut codec kv ttl now) ↔ PlainLive codec kv ttl now := by
  cases ttl with
  | none =>
    have rejects : Rejects (decodedAmong codec kv none now) := .inl rfl
    exact ⟨fun _ _ => nofun, fun _ => .inr ⟨rejects, unansweredPut total⟩⟩
  | some t =>
    by_cases wellFormed : WellFormedEntry codec kv
    · obtain ⟨⟨sn4, sn6⟩, attrs, key, value⟩ := wellFormed
      have among : decodedAmong codec kv (some t) now = if FitsClock now t then
          .ok (some (snapshotLeaseOf sn4 sn6 attrs t now)) else .error .panicked := by
        rw [decodedAmong, readableLease key value (i64 t rfl)]
        split <;> rfl
      rw [among, readableAlike key value (i64 t rfl), plainLiveReadable key value]
    · obtain ⟨message, among⟩ := (malformedEntry none now total wellFormed).1 t
      have panicked : decodedAmong codec kv (some t) now = .error .panicked := by
        rw [decodedAmong, among]
        rfl
      exact iff_of_false (panickedApart panicked) (fun live => wellFormed (plainLiveWellFormed live))

end Decoders

theorem textNeverPanics {V : Type} (crates : TextCrates) (values : ValueCodec V) (pre : List Char) :
    NeverPanics (textCodec crates values pre) where
  key := fun _ => TextCrates.extractEnds
  value := fun v => by
    change (∃ attrs, (values.fromSlice v).mapError Stop.bail = .ok attrs) ∨
      ∃ message, (values.fromSlice v).mapError Stop.bail = .error (.bail message)
    cases values.fromSlice v with
    | ok attrs => exact .inl ⟨attrs, rfl⟩
    | error message => exact .inr ⟨message, rfl⟩

theorem decodeAlikeIff {V : Type} (crates : TextCrates) (values : ValueCodec V) (pre : List Char)
    (kv : KeyValue (List Char) V) (ttl : Option Int) (now : SystemTime) (i64 : ∀ t, ttl = some t → IsI64 t) :
    (Alike (decodedOne (textCodec crates values pre) kv ttl now) (decodedPut (textCodec crates values pre) kv ttl now) ∧
      Alike (decodedAmong (textCodec crates values pre) kv ttl now) (decodedPut (textCodec crates values pre) kv ttl now)) ↔
        PlainLive (textCodec crates values pre) kv ttl now := by
  have total := textNeverPanics crates values pre
  rw [alikeOneIff total i64, alikeAmongIff total i64]
  exact ⟨And.right, fun live => ⟨.inr live, live⟩⟩

private def sixNetwork : Ipv6Network := ⟨0x000A0000000000000000000000000001, 64, by decide⟩

/- The one IPv6 network that the entry below has. -/
private def sixCrates : TextCrates := {
  TextCrates.plain with
  ipv6Network := fun text => if text = ['a', ':', ':', '1', '/', '6', '4'] then some sixNetwork else none }

private def plainValues : ValueCodec LeaseAttrs := ⟨id, .ok⟩

private def ownedEntry : KeyValue (List Char) LeaseAttrs := ⟨subnetKey [] (cidr 0x0A000000 24), {}, 5⟩

private def dualEntry : KeyValue (List Char) LeaseAttrs := {
  ownedEntry with key := ownedEntry.key ++ ['&', 'a', ':', ':', '1', '-', '6', '4'] }

private def strayEntry : KeyValue (List Char) LeaseAttrs := { ownedEntry with key := subnetsKey [] ++ ['/', 'x'] }

private def sixCodec : Codec (List Char) LeaseAttrs := textCodec sixCrates plainValues []

/- A dual-stack key, a key that is no subnet's, and the TTL that etcd answers for an entry without a lease. -/
theorem decodedApart :
    (decodedOne sixCodec dualEntry (some 100) 0 =
        .ok (some (snapshotLeaseOf (cidr 0x0A000000 24) (some sixNetwork) {} 100 0)) ∧
      decodedPut sixCodec dualEntry (some 100) 0 = .ok (some (snapshotLeaseOf (cidr 0x0A000000 24) none {} 100 0)) ∧
      ¬Alike (decodedOne sixCodec dualEntry (some 100) 0) (decodedPut sixCodec dualEntry (some 100) 0)) ∧
    (decodedAmong sixCodec strayEntry (some 100) 0 = .error .panicked ∧
      decodedPut sixCodec strayEntry (some 100) 0 = .error (.bail "invalid subnet") ∧
      ¬Alike (decodedAmong sixCodec strayEntry (some 100) 0) (decodedPut sixCodec strayEntry (some 100) 0)) ∧
    (decodedOne sixCodec ownedEntry (some (-1)) 0 = .error .panicked ∧
      decodedPut sixCodec ownedEntry (some (-1)) 0 = .ok none ∧
      ¬Alike (decodedOne sixCodec ownedEntry (some (-1)) 0) (decodedPut sixCodec ownedEntry (some (-1)) 0)) := by
  have dual : decodedOne sixCodec dualEntry (some 100) 0 =
      .ok (some (snapshotLeaseOf (cidr 0x0A000000 24) (some sixNetwork) {} 100 0)) := by decide
  have single : decodedPut sixCodec dualEntry (some 100) 0 =
      .ok (some (snapshotLeaseOf (cidr 0x0A000000 24) none {} 100 0)) := by decide
  have stray : decodedAmong sixCodec strayEntry (some 100) 0 = .error .panicked := by decide
  have negative : decodedOne sixCodec ownedEntry (some (-1)) 0 = .error .panicked := by decide
  refine ⟨⟨dual, single, ?_⟩, ⟨stray, by decide, panickedApart stray⟩, negative, by decide, panickedApart negative⟩
  rw [alikeLeases dual single]
  decide

theorem ownedEntryAlike :
    Alike (decodedOne sixCodec ownedEntry (some 100) 0)
        (decodedPut sixCodec ownedEntry (some 100) 0) ∧
      Alike (decodedAmong sixCodec ownedEntry (some 100) 0)
        (decodedPut sixCodec ownedEntry (some 100) 0) := by
  refine (decodeAlikeIff sixCrates plainValues [] ownedEntry (some 100) 0 ?_).mpr ?_
  · rintro _ ⟨⟩
    exact ⟨by decide, by decide⟩
  · rintro _ ⟨⟩
    exact ⟨⟨_, TextCrates.extractSubnetKey sixCrates [] (cidr 0x0A000000 24)⟩, ⟨{}, rfl⟩, by decide⟩

end FlannelNg
