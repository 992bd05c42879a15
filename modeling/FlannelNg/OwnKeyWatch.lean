import FlannelNg.SubnetKey
import FlannelNg.Changes
import FlannelNg.Allocate

/-! Which leases a node's watch of its own lease sees. The watch takes all keys that start
with the own key, and the number at its end may go on: a length of one digit is the start
of lengths of two. -/
namespace FlannelNg
open Cidr Outcome

/- A length of two digits behind the own address whose first digit is the own length. -/
def Extends (own sn : Ipv4Network) : Prop := sn.ip = own.ip ∧ 10 ≤ sn.prefixLen ∧ sn.prefixLen / 10 = own.prefixLen

theorem prefixOfOne {x : Char} {xs : List Char} (nonempty : xs ≠ []) (start : xs <+: [x]) : xs = [x] := by
  have some_ := List.length_pos_iff.mpr nonempty
  have short := start.length_le
  exact start.eq_of_length (by simpa using Nat.le_antisymm short some_)

theorem decimalPrefix {a b : Nat} (small : b < 100) : decimal a <+: decimal b ↔ a = b ∨ 10 ≤ b ∧ b / 10 = a := by
  rcases Nat.lt_or_ge b 10 with one | two
  · have single : decimal b = [Nat.digitChar b] := Nat.toDigits_of_lt_base one
    constructor
    · intro start
      rw [single] at start
      exact .inl (decimalInj ((prefixOfOne decimalNonempty start).trans single.symm))
    · rintro (rfl | more)
      · exact List.prefix_refl _
      · omega
  · have split : decimal b = decimal (b / 10) ++ [Nat.digitChar (b % 10)] := Nat.toDigits_of_base_le (by omega) two
    have single : decimal (b / 10) = [Nat.digitChar (b / 10)] := Nat.toDigits_of_lt_base (by omega)
    constructor
    · intro start
      rw [split, List.prefix_concat_iff] at start
      rcases start with whole | front
      · exact .inl (decimalInj (whole.trans split.symm))
      · rw [single] at front
        exact .inr ⟨two, (decimalInj ((prefixOfOne decimalNonempty front).trans single.symm)).symm⟩
    · rintro (rfl | ⟨_, rfl⟩)
      · exact List.prefix_refl _
      · rw [split]
        exact List.prefix_append _ _

theorem subnetNameExtends {own sn : Ipv4Network} :
    (subnetName own).isPrefixOf (subnetName sn) = true ↔ sn = own ∨ Extends own sn := by
  have valid := sn.valid
  have behind : ∀ {ip}, dotted ip ++ '-' :: decimal own.prefixLen <+: dotted ip ++ '-' :: decimal sn.prefixLen ↔
      own.prefixLen = sn.prefixLen ∨ 10 ≤ sn.prefixLen ∧ sn.prefixLen / 10 = own.prefixLen := by
    intro ip
    rw [List.prefix_append_right_inj, List.cons_prefix_cons, decimalPrefix (by omega)]
    simp
  constructor
  · intro start
    have ip := subnetNameIp start
    rw [List.isPrefixOf_iff_prefix, subnetName, subnetName, ip, behind] at start
    rcases start with same | longer
    · exact .inl (eqOfParts ip.symm same.symm)
    · exact .inr ⟨ip.symm, longer⟩
  · intro named
    rw [List.isPrefixOf_iff_prefix, subnetName, subnetName]
    rcases named with rfl | ⟨ip, longer⟩
    · exact List.prefix_refl _
    · rw [ip]
      exact behind.mpr (.inr longer)

section Watch
variable {K V : Type} (codec : Codec K V)

/- etcd sends the events of all keys that start with the own one. -/
def sentTo (own : Ipv4Network) (responses : List (WatchResponse K V)) : List (WatchResponse K V) :=
  responses.map (fun resp => { resp with
    events := resp.events.filter (fun d => codec.startsWith d.event.key (codec.key own)) })

/- The responses with the events of the own key alone. -/
def onlyOf [DecidableEq K] (own : Ipv4Network) (responses : List (WatchResponse K V)) : List (WatchResponse K V) :=
  responses.map (fun resp => { resp with events := resp.events.filter (fun d => d.event.key = codec.key own) })

def OnSubnetKeys (responses : List (WatchResponse K V)) : Prop :=
  ∀ resp ∈ responses, ∀ d ∈ resp.events, ∃ sn, d.event.key = codec.key sn

/- Every event that the watch passes on is of the own subnet. -/
def SeesOnlyOwn (own : Ipv4Network) (responses : List (WatchResponse K V)) : Prop :=
  ∀ batch ∈ (watchSubnet codec (sentTo codec own responses)).1, ∀ e ∈ batch, e.lease.subnet = own

/- No event is of a subnet whose key goes on behind the own one. -/
def NoneExtends (own : Ipv4Network) (responses : List (WatchResponse K V)) : Prop :=
  ∀ resp ∈ responses, ∀ d ∈ resp.events, ∀ sn, d.event.key = codec.key sn → ¬Extends own sn

variable {codec} {own : Ipv4Network} {responses : List (WatchResponse K V)} {d : Delivery K V} {e : LeaseWatchEvent}

theorem parsedSubnet (ok : parseSubnetWatchResp codec d = .ok (some e)) :
    ∃ sn6, codec.extractIpAndSubnet d.event.key = .ok (e.lease.subnet, sn6) := by
  simp only [parseSubnetWatchResp, bindOk] at ok
  obtain ⟨⟨sn4, sn6⟩, read, made⟩ := ok
  refine ⟨sn6, read.trans ?_⟩
  obtain ⟨event, ttl, now⟩ := d
  cases event with
  | delete key =>
    cases Option.some.inj (Except.ok.inj made)
    rfl
  | put kv =>
    obtain ⟨attrs, _, made⟩ := bindOk.mp made
    cases ttl with
    | none => contradiction
    | some ttl =>
      dsimp only at made
      split at made
      · cases made
      · obtain ⟨exp, _, made⟩ := bindOk.mp made
        cases Option.some.inj (Except.ok.inj made)
        rfl

/- An event that is passed on was sent for a key that starts with the own one. -/
theorem passedFrom {batch : List LeaseWatchEvent} (sent : batch ∈ (watchSubnet codec (sentTo codec own responses)).1)
    (member : e ∈ batch) : ∃ resp ∈ responses, ∃ d ∈ resp.events,
      codec.startsWith d.event.key (codec.key own) = true ∧ parseSubnetWatchResp codec d = .ok (some e) := by
  obtain ⟨_, mem, parsed⟩ := watchedBatch sent
  obtain ⟨resp, memResp, rfl⟩ := List.mem_map.mp mem
  obtain ⟨d, mem, made⟩ := parsedSound parsed member
  obtain ⟨mem, starts⟩ := List.mem_filter.mp mem
  exact ⟨resp, memResp, d, mem, starts, made⟩

end Watch

section Text
variable {V : Type} {crates : TextCrates} {values : ValueCodec V} {pre : List Char} {own sn : Ipv4Network}
variable {responses : List (WatchResponse (List Char) V)}

/- Then the loop has nothing from the events of other subnets. -/
theorem onlyOwnSent (keys : OnSubnetKeys (textCodec crates values pre) responses)
    (none_ : NoneExtends (textCodec crates values pre) own responses) :
    sentTo (textCodec crates values pre) own responses = onlyOf (textCodec crates values pre) own responses := by
  refine List.map_congr_left fun resp mem => congrArg (fun events => WatchResponse.mk events resp.revision resp.canceled) ?_
  refine List.filter_congr fun d memD => ?_
  obtain ⟨sn, key⟩ := keys resp mem d memD
  rw [Bool.eq_iff_iff, decide_eq_true_iff, key]
  constructor
  · intro starts
    rw [(subnetNameExtends.mp (textStartsWith.symm.trans starts)).resolve_right (none_ resp mem d memD sn key)]
  · intro same
    rw [same]
    exact List.isPrefixOf_iff_prefix.mpr (List.prefix_refl _)

theorem onlyOwnSeen (keys : OnSubnetKeys (textCodec crates values pre) responses)
    (none_ : NoneExtends (textCodec crates values pre) own responses) :
    SeesOnlyOwn (textCodec crates values pre) own responses := by
  intro batch sent e member
  obtain ⟨resp, mem, d, memD, starts, made⟩ := passedFrom sent member
  obtain ⟨sn, key⟩ := keys resp mem d memD
  obtain ⟨sn6, read⟩ := parsedSubnet made
  rw [key] at read starts
  have subnet := (Prod.mk.inj (Except.ok.inj ((TextCrates.extractSubnetKey crates pre sn).symm.trans read))).1
  rw [← subnet]
  exact (subnetNameExtends.mp (textStartsWith.symm.trans starts)).resolve_right (none_ resp mem d memD sn key)

theorem extendsOther (longer : Extends own sn) : sn ≠ own := by
  rintro rfl
  obtain ⟨_, two, first⟩ := longer
  omega

/- The deletion of a subnet whose key goes on behind the own one. -/
def deletion (pre : List Char) (sn : Ipv4Network) : WatchResponse (List Char) V :=
  ⟨[⟨.delete (subnetKey pre sn), none, 0⟩], 1, false⟩

theorem deletionPassed (starts : (subnetName own).isPrefixOf (subnetName sn) = true) :
    (watchSubnet (textCodec crates values pre) (sentTo (textCodec crates values pre) own [deletion pre sn])).1 =
      [[⟨{ Lease.default 0 with enableIpv4 := true, subnet := sn }, .delete⟩]] := by
  have start : (textCodec crates values pre).startsWith (subnetKey pre sn) ((textCodec crates values pre).key own) = true :=
    textStartsWith.trans starts
  have read : (textCodec crates values pre).extractIpAndSubnet (subnetKey pre sn) = .ok (sn, none) :=
    TextCrates.extractSubnetKey crates pre sn
  simp [sentTo, deletion, watchSubnet, parseEvents, parseSubnetWatchResp, Event.key, start, read, bind, Except.bind,
    pure, Except.pure]

theorem ownWatchIff (crates : TextCrates) (values : ValueCodec V) (pre : List Char) (own : Ipv4Network) :
    (∀ responses, OnSubnetKeys (textCodec crates values pre) responses →
      NoneExtends (textCodec crates values pre) own responses →
      SeesOnlyOwn (textCodec crates values pre) own responses ∧
        sentTo (textCodec crates values pre) own responses = onlyOf (textCodec crates values pre) own responses) ∧
    ((∀ responses, OnSubnetKeys (textCodec crates values pre) responses →
      SeesOnlyOwn (textCodec crates values pre) own responses) ↔ own.prefixLen = 0 ∨ 4 ≤ own.prefixLen) := by
  refine ⟨fun _ keys none_ => ⟨onlyOwnSeen keys none_, onlyOwnSent keys none_⟩, fun all => ?_, fun allowed responses keys => onlyOwnSeen keys ?_⟩
  · by_contra short
    have valid := own.valid
    -- ten times the own length is another length, and its key goes on with a zero
    let sn : Ipv4Network := ⟨own.ip, own.prefixLen * 10, by omega⟩
    have longer : Extends own sn := ⟨rfl, by change 10 ≤ own.prefixLen * 10; omega, by change own.prefixLen * 10 / 10 = _; omega⟩
    have keys : OnSubnetKeys (textCodec crates values pre) [(deletion pre sn : WatchResponse (List Char) V)] := by
      simp only [OnSubnetKeys, deletion, List.mem_singleton, forall_eq]
      exact ⟨sn, rfl⟩
    have only := all _ keys
    rw [SeesOnlyOwn, deletionPassed (subnetNameExtends.mpr (.inr longer))] at only
    exact extendsOther longer (only _ List.mem_cons_self _ List.mem_cons_self)
  · rintro _ _ _ _ sn _ ⟨_, two, first⟩
    have valid := sn.valid
    omega

end Text

/- The whole address space in four blocks, the middle two of which are handed out. -/
private def quarters : Config := {
  network := some (cidr 0 0)
  subnetMin := some 0x40000000
  subnetMax := some 0x80000000
  subnetLen := 2 }

private def quartersAccepted : Config := { quarters with enableIpv4 := true, backendType := some "udp" }

private def noValues : ValueCodec Unit := ⟨fun _ => (), fun _ => .error "no value"⟩

theorem longerLengthSeen :
    (getNetworkConfig .checked (.ok quarters) = .ok quartersAccepted ∧
      allocateSubnet .checked quartersAccepted [] 3 0 = .ok (cidr 0x40000000 2)) ∧
    OnSubnetKeys (textCodec .plain noValues []) [deletion [] (cidr 0x40000000 24)] ∧
    ¬SeesOnlyOwn (textCodec .plain noValues []) (cidr 0x40000000 2) [deletion [] (cidr 0x40000000 24)] := by
  refine ⟨by decide, ?_, fun only => ?_⟩
  · simp only [OnSubnetKeys, deletion, List.mem_singleton, forall_eq]
    exact ⟨cidr 0x40000000 24, rfl⟩
  · rw [SeesOnlyOwn, deletionPassed (by decide)] at only
    exact absurd (only _ List.mem_cons_self _ List.mem_cons_self) (by decide)

end FlannelNg
