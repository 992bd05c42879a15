import FlannelNg.Changes

/-! Whether a read of the registry gives every live entry. The TTL of each entry is a
query of its own: an entry whose query fails is left out, and the answer -1 becomes a
duration so long that adding it to the clock panics. -/
namespace FlannelNg
open Cidr Outcome

/- A TTL is an `i64`. -/
def IsI64 (ttl : Int) : Prop := -2 ^ 63 ≤ ttl ∧ ttl < 2 ^ 63

/- The TTL is a duration, and the clock can show its end. -/
def FitsClock (now : SystemTime) (ttl : Int) : Prop := 0 ≤ ttl ∧ now / SystemTime.nanos + ttl.toNat < 2 ^ 63

instance (now ttl) : Decidable (FitsClock now ttl) := by unfold FitsClock; infer_instance

theorem addTtl {now : SystemTime} {ttl : Int} (i64 : IsI64 ttl) : now.addSecs (asU64 ttl) =
    if FitsClock now ttl then .ok (now + ttl.toNat * SystemTime.nanos) else .error .panicked := by
  obtain ⟨low, high⟩ := i64
  rcases Int.lt_or_le ttl 0 with negative | natural
  · have huge : 2 ^ 63 ≤ asU64 ttl := by
      unfold asU64
      omega
    rw [if_neg (fun fits => absurd fits.1 (Int.not_le.mpr negative)), SystemTime.addSecs]
    exact if_neg (Nat.not_lt.mpr (Nat.le_trans huge (Nat.le_add_left _ _)))
  · have same : asU64 ttl = ttl.toNat := by
      unfold asU64
      omega
    rw [SystemTime.addSecs, same]
    simp only [FitsClock, natural, true_and]

section Snapshot
variable {K V : Type} (codec : Codec K V)

/- Key and value of the entry decode. -/
def WellFormedEntry (kv : KeyValue K V) : Prop :=
  ∃ nets attrs, codec.extractIpAndSubnet kv.key = .ok nets ∧ codec.fromSlice kv.value = .ok attrs

/-- The lease has the subnets and the attributes of the entry. -/
structure Describes (kv : KeyValue K V) (lease : Lease) : Prop where
  subnets : codec.extractIpAndSubnet kv.key = .ok (lease.subnet, lease.ipv6Subnet)
  attrs : codec.fromSlice kv.value = .ok lease.attrs

/-- What the answers to the TTL queries tell of the entries: one without an etcd lease
lives on, one with an etcd lease lives while that has time left. -/
structure Tells (rpc : ReadRpc K V) (kvs : List (KeyValue K V)) (live : KeyValue K V → Bool) : Prop where
  answers : ∀ kv ∈ kvs, ∀ ttl, rpc.ttl kv = some ttl → -1 ≤ ttl ∧ ttl < 2 ^ 63
  permanent : ∀ kv ∈ kvs, kv.lease = 0 → live kv = true
  remaining : ∀ kv ∈ kvs, ∀ ttl, rpc.ttl kv = some ttl → 0 ≤ ttl → live kv = true
  expired : ∀ kv ∈ kvs, kv.lease ≠ 0 → rpc.ttl kv = some (-1) → live kv = false

/-- The read does not panic, and what it gives is one lease for each live entry, in the order of the keys. -/
structure FullPicture (rpc : ReadRpc K V) (live : KeyValue K V → Bool) (db : Etcd K V) : Prop where
  noPanic : getSubnets codec rpc db ≠ .error .panicked
  exact : ∀ leases revision, getSubnets codec rpc db = .ok (leases, revision) →
    List.Forall₂ (Describes codec) (db.kvs.filter live) leases

/-- Every live entry has a TTL that fits, and of the others none is answered. -/
def EachAnswered (rpc : ReadRpc K V) (live : KeyValue K V → Bool) (kvs : List (KeyValue K V)) : Prop :=
  ∀ kv ∈ kvs, match rpc.ttl kv with
    | some ttl => FitsClock (rpc.clock kv) ttl
    | none => live kv = false

/- The lease that a snapshot makes of a readable entry. -/
def snapshotLeaseOf (sn4 : Ipv4Network) (sn6 : Option Ipv6Network) (attrs : LeaseAttrs) (t : Int) (now : SystemTime) : Lease where
  enableIpv4 := true
  subnet := sn4
  enableIpv6 := sn6.isSome
  ipv6Subnet := sn6
  attrs := attrs
  expiration := now + t.toNat * SystemTime.nanos

variable {codec} {kv : KeyValue K V} {kvs : List (KeyValue K V)} {rpc : ReadRpc K V} {live : KeyValue K V → Bool}
variable {db : Etcd K V}

theorem readableLease {sn4 : Ipv4Network} {sn6 : Option Ipv6Network} {attrs : LeaseAttrs} {t : Int} {now : SystemTime}
    (key : codec.extractIpAndSubnet kv.key = .ok (sn4, sn6)) (value : codec.fromSlice kv.value = .ok attrs)
    (i64 : IsI64 t) : kvToIpLease codec kv t now =
      if FitsClock now t then .ok (snapshotLeaseOf sn4 sn6 attrs t now) else .error .panicked := by
  by_cases fits : FitsClock now t
  · simp only [kvToIpLease, key, value, bind, Except.bind, addTtl i64, if_pos fits]
    rfl
  · simp only [kvToIpLease, key, value, bind, Except.bind, addTtl i64, if_neg fits]

theorem entryDecoded {ttl : Int} {now : SystemTime} (wellFormed : WellFormedEntry codec kv) (i64 : IsI64 ttl) :
    if FitsClock now ttl then ∃ lease, kvToIpLease codec kv ttl now = .ok lease
    else kvToIpLease codec kv ttl now = .error .panicked := by
  obtain ⟨⟨sn4, sn6⟩, attrs, key, value⟩ := wellFormed
  rw [readableLease key value i64]
  by_cases fits : FitsClock now ttl
  · rw [if_pos fits, if_pos fits]
    exact ⟨_, rfl⟩
  · rw [if_neg fits, if_neg fits]

theorem leaseDescribes {lease : Lease} (made : LeaseOf codec rpc kv lease) : Describes codec kv lease := by
  obtain ⟨ttl, _, made⟩ := made
  simp only [kvToIpLease, bindOk] at made
  obtain ⟨nets, key, attrs, value, exp, _, last⟩ := made
  cases Except.ok.inj last
  exact ⟨key, value⟩

theorem readEnds (wellFormed : ∀ kv ∈ kvs, WellFormedEntry codec kv)
    (i64 : ∀ kv ∈ kvs, ∀ ttl, rpc.ttl kv = some ttl → IsI64 ttl) :
    (∃ leases, readLeases codec rpc kvs = .ok leases) ∧
        (∀ kv ∈ kvs, ∀ ttl, rpc.ttl kv = some ttl → FitsClock (rpc.clock kv) ttl) ∨
      readLeases codec rpc kvs = .error .panicked ∧
        ∃ kv ∈ kvs, ∃ ttl, rpc.ttl kv = some ttl ∧ ¬FitsClock (rpc.clock kv) ttl := by
  induction kvs with
  | nil => exact .inl ⟨⟨[], rfl⟩, by simp⟩
  | cons kv rest ih =>
    have later := ih (fun kv mem => wellFormed kv (List.mem_cons_of_mem _ mem))
      (fun kv mem => i64 kv (List.mem_cons_of_mem _ mem))
    unfold readLeases
    cases asked : rpc.ttl kv with
    | none => simpa [asked] using later
    | some ttl =>
      have here := @entryDecoded _ _ codec kv ttl (rpc.clock kv) (wellFormed kv List.mem_cons_self)
        (i64 kv List.mem_cons_self ttl asked)
      split at here
      · rename_i fits
        obtain ⟨lease, made⟩ := here
        rcases later with ⟨⟨leases, read⟩, all⟩ | ⟨panicked, bad⟩
        · refine .inl ⟨⟨lease :: leases, by simp [made, read, expect, bind, Except.bind, pure, Except.pure]⟩, ?_⟩
          rw [List.forall_mem_cons]
          exact ⟨fun ttl' same => Option.some.inj (asked.symm.trans same) ▸ fits, all⟩
        · refine .inr ⟨by simp [made, panicked, expect, bind, Except.bind], ?_⟩
          obtain ⟨other, mem, found⟩ := bad
          exact ⟨other, List.mem_cons_of_mem _ mem, found⟩
      · rename_i unfit
        exact .inr ⟨by simp [here, expect, bind, Except.bind], kv, List.mem_cons_self, ttl, asked, unfit⟩

/- A read that reaches the store gives the answered entries, or panics on one of them. -/
theorem snapshotEnds (reached : rpc.failed = none) (wellFormed : ∀ kv ∈ db.kvs, WellFormedEntry codec kv)
    (i64 : ∀ kv ∈ db.kvs, ∀ ttl, rpc.ttl kv = some ttl → IsI64 ttl) :
    (∃ leases revision, getSubnets codec rpc db = .ok (leases, revision)) ∧
        (∀ kv ∈ db.kvs, ∀ ttl, rpc.ttl kv = some ttl → FitsClock (rpc.clock kv) ttl) ∨
      getSubnets codec rpc db = .error .panicked ∧
        ∃ kv ∈ db.kvs, ∃ ttl, rpc.ttl kv = some ttl ∧ ¬FitsClock (rpc.clock kv) ttl := by
  simp only [getSubnets, reached]
  split
  · rename_i empty
    have none_ := List.eq_nil_of_length_eq_zero empty
    exact .inl ⟨⟨[], 0, rfl⟩, by simp [none_]⟩
  · rcases readEnds wellFormed i64 with ⟨⟨leases, read⟩, all⟩ | ⟨panicked, bad⟩
    · exact .inl ⟨⟨leases, db.revision, by rw [read]; rfl⟩, all⟩
    · exact .inr ⟨by rw [panicked]; rfl, bad⟩

theorem filterSame {α : Type} {p q : α → Bool} {xs : List α} (within : ∀ x ∈ xs, p x = true → q x = true)
    (length : (xs.filter p).length = (xs.filter q).length) : xs.filter p = xs.filter q := by
  have twice : xs.filter p = (xs.filter q).filter p := by
    rw [List.filter_filter]
    refine List.filter_congr fun x mem => ?_
    cases kept : p x with
    | false => rfl
    | true => rw [within x mem kept]; rfl
  exact twice.trans (List.filter_sublist.eq_of_length (twice ▸ length))

theorem fullPictureIff (wellFormed : ∀ kv ∈ db.kvs, WellFormedEntry codec kv) (tells : Tells rpc db.kvs live) :
    FullPicture codec rpc live db ↔ rpc.failed ≠ none ∨ EachAnswered rpc live db.kvs := by
  have i64 : ∀ kv ∈ db.kvs, ∀ ttl, rpc.ttl kv = some ttl → IsI64 ttl := fun kv mem ttl asked => by
    have answer := tells.answers kv mem ttl asked
    exact ⟨by omega, answer.2⟩
  cases reached : rpc.failed with
  | some message =>
    have failed : getSubnets codec rpc db = .error (.bail message) := by simp [getSubnets, reached]
    simp only [ne_eq, reduceCtorEq, not_false_eq_true, true_or, iff_true]
    exact ⟨by simp [failed], by simp [failed]⟩
  | none =>
    simp only [ne_eq, not_true_eq_false, false_or]
    constructor
    · intro picture kv mem
      rcases snapshotEnds reached wellFormed i64 with ⟨⟨leases, revision, read⟩, fits⟩ | ⟨panicked, _⟩
      · cases asked : rpc.ttl kv with
        | some ttl => exact fits kv mem ttl asked
        | none =>
          -- the answered entries are live, and there are as many of them as of the live ones
          have same := filterSame (fun kv mem some_ => by
              obtain ⟨ttl, asked⟩ := Option.isSome_iff_exists.mp some_
              exact tells.remaining kv mem ttl asked (fits kv mem ttl asked).1)
            ((snapshotSource read).length_eq.trans (picture.exact leases revision read).length_eq.symm)
          by_contra lives
          have listed : kv ∈ db.kvs.filter live := List.mem_filter.mpr ⟨mem, Bool.eq_true_of_not_eq_false lives⟩
          rw [← same] at listed
          simpa [asked] using (List.mem_filter.mp listed).2
      · exact absurd panicked picture.noPanic
    · intro answered
      rcases snapshotEnds reached wellFormed i64 with ⟨⟨leases, revision, read⟩, fits⟩ | ⟨_, kv, mem, ttl, asked, unfit⟩
      · have same : db.kvs.filter live = db.kvs.filter (fun kv => (rpc.ttl kv).isSome) := by
          refine List.filter_congr fun kv mem => ?_
          have here := answered kv mem
          cases asked : rpc.ttl kv with
          | none => rwa [asked] at here
          | some ttl => exact tells.remaining kv mem ttl asked (fits kv mem ttl asked).1
        refine ⟨by simp [read], fun leases revision read => ?_⟩
        rw [same]
        exact (snapshotSource read).imp (fun _ _ => leaseDescribes)
      · have here := answered kv mem
        rw [asked] at here
        exact absurd here unfit

end Snapshot

private def leasedEntry : KeyValue Ipv4Network LeaseAttrs := ⟨cidr 0x0A000100 24, { publicIp := 1 }, 5⟩

private def permanentEntry : KeyValue Ipv4Network LeaseAttrs := ⟨cidr 0x0A000200 24, { publicIp := 2 }, 0⟩

private def twoEntries : Etcd Ipv4Network LeaseAttrs :=
  (Etcd.empty.put Codec.plain leasedEntry).put Codec.plain permanentEntry

/- The query for the entry without an etcd lease fails, or is answered -1. -/
private def answersFor (permanent : Option Int) : ReadRpc Ipv4Network LeaseAttrs where
  failed := none
  ttl := fun kv => if kv.lease = 0 then permanent else some 100
  clock := fun _ => 0

theorem snapshotWithHoles :
    (getSubnets Codec.plain (answersFor none) twoEntries).map (fun read => read.1.map Lease.subnet) =
        .ok [cidr 0x0A000100 24] ∧
      getSubnets Codec.plain (answersFor (some (-1))) twoEntries = .error .panicked ∧
      ∀ unanswered ∈ [none, some (-1)], ¬FullPicture Codec.plain (answersFor unanswered) (fun _ => true) twoEntries := by
  refine ⟨by decide, by decide, fun unanswered mem picture => ?_⟩
  rcases List.mem_cons.mp mem with rfl | mem
  · have some_ := (picture.exact _ 3 rfl).length_eq
    exact absurd some_ (by decide)
  · cases List.mem_singleton.mp mem
    exact picture.noPanic (by decide)

private def expiredEntry : KeyValue Ipv4Network LeaseAttrs := ⟨cidr 0x0A000180 25, { publicIp := 3 }, 6⟩

private def endingEntry : KeyValue Ipv4Network LeaseAttrs := ⟨cidr 0x0A000300 24, { publicIp := 4 }, 7⟩

private def leasedStore : Etcd Ipv4Network LeaseAttrs :=
  ((Etcd.empty.put Codec.plain leasedEntry).put Codec.plain expiredEntry).put Codec.plain endingEntry

private def leasedAnswers : ReadRpc Ipv4Network LeaseAttrs where
  failed := none
  ttl := fun kv => if kv.lease = 6 then none else if kv.lease = 7 then some 0 else some 100
  clock := fun kv => if kv.lease = 7 then 5 else 0

/- The query for an entry that has expired fails, and of another no whole second is left. -/
theorem leasedSnapshotFull : FullPicture Codec.plain leasedAnswers (fun kv => decide (kv.lease ≠ 6)) leasedStore ∧
    (getSubnets Codec.plain leasedAnswers leasedStore).map (fun read => read.1.map Lease.subnet) =
      .ok [cidr 0x0A000100 24, cidr 0x0A000300 24] := by
  have entries : ∀ {P : KeyValue Ipv4Network LeaseAttrs → Prop}, P leasedEntry → P expiredEntry → P endingEntry →
      ∀ kv ∈ leasedStore.kvs, P kv := by
    intro P leased expired ending kv mem
    have listed : leasedStore.kvs = [leasedEntry, expiredEntry, endingEntry] := by decide
    rw [listed] at mem
    rcases List.mem_cons.mp mem with rfl | mem
    · exact leased
    · rcases List.mem_cons.mp mem with rfl | mem
      · exact expired
      · exact List.mem_singleton.mp mem ▸ ending
  refine ⟨(fullPictureIff (fun kv _ => ⟨(kv.key, none), kv.value, rfl, rfl⟩) ?_).mpr (.inr ?_), by decide⟩
  · exact {
      answers := entries (fun _ asked => Option.some.inj asked ▸ by decide) nofun (fun _ asked => Option.some.inj asked ▸ by decide)
      permanent := entries nofun nofun nofun
      remaining := entries (fun _ _ _ => rfl) nofun (fun _ _ _ => rfl)
      expired := entries nofun (fun _ => nofun) nofun }
  · exact entries (by decide : FitsClock 0 100) rfl (by decide : FitsClock 5 0)

end FlannelNg
