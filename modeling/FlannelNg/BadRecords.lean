import FlannelNg.About
import FlannelNg.Records

/-! What the malformed record of one peer does to the others: the events about their
subnets in a watch, against those in the same watch without the malformed records. -/
namespace FlannelNg
open Cidr Outcome Replay Runs

section Spared
variable {K V : Type} (codec : Codec K V)

/- A subnet of another node, none of whose records is bad. -/
def spared (own : Lease) (bad : Delivery K V → Bool) (responses : List (WatchResponse K V)) (s : Ipv4Network) : Bool :=
  decide (s ≠ own.subnet) &&
    (responses.flatMap WatchResponse.events).all (fun d => !bad d || decide (subnetNamed codec d ≠ some s))

/- The responses as they would be without the bad records. -/
def cleaned (bad : Delivery K V → Bool) (responses : List (WatchResponse K V)) : List (WatchResponse K V) :=
  responses.map (fun resp => { resp with events := resp.events.filter (fun d => !bad d) })

/- The watch and the watcher pass on the same about the subnets looked at. -/
structure PassedOn (p : Ipv4Network → Bool) (own : Lease) (snapshot : List Lease)
    (responses clean : List (WatchResponse K V)) : Prop where
  delivered : about p (deliveredEvents codec responses) = about p (deliveredEvents codec clean)
  emitted : about p (watched codec own snapshot responses).emitted = about p (watched codec own snapshot clean).emitted

structure UdpSpared (p : Ipv4Network → Bool) (mtu : Nat) (own : Lease) (snapshot : List Lease)
    (responses clean : List (WatchResponse K V)) : Prop extends PassedOn codec p own snapshot responses clean where
  routes : (udpRoutes mtu (watched codec own snapshot responses)).filter (fun r => p r.dst) =
    (udpRoutes mtu (watched codec own snapshot clean)).filter (fun r => p r.dst)

structure VxlanSpared (p : Ipv4Network → Bool) (parseMac : String → Option MacAddr6) (n : VxlanNetwork) (k : Kernel)
    (own : Lease) (snapshot : List Lease) (responses clean : List (WatchResponse K V)) : Prop
    extends PassedOn codec p own snapshot responses clean where
  handled : about p (handledEvents parseMac (watched codec own snapshot responses).emitted) =
    about p (handledEvents parseMac (watched codec own snapshot clean).emitted)
  routes : ∀ s, p s = true →
    (vxlanKernel parseMac n k (watched codec own snapshot responses).emitted).routes.route (some s) =
      (vxlanKernel parseMac n k (watched codec own snapshot clean).emitted).routes.route (some s)

/- From the first response on that is not clear, no event is about a subnet looked at. -/
def NoneLost (p : Ipv4Network → Bool) (responses : List (WatchResponse K V)) : Prop :=
  ∀ d ∈ (responses.dropWhile (clear codec)).flatMap WatchResponse.events,
    ∀ e, decoded codec d = some e → p e.lease.subnet = false

def badVtep (parseMac : String → Option MacAddr6) (d : Delivery K V) : Bool :=
  (decoded codec d).any (fun e => !decide (WellFormedVtep parseMac e))

/- From the first record on whose VTEP stops the backend, no event is about a subnet looked at. -/
def NoneAfter (p : Ipv4Network → Bool) (parseMac : String → Option MacAddr6) (own : Lease)
    (responses : List (WatchResponse K V)) : Prop :=
  ∀ d ∈ (responses.flatMap WatchResponse.events).dropWhile
      (fun d => (decoded codec d).all (passes parseMac own.subnet)),
    ∀ e, decoded codec d = some e → p e.lease.subnet = false

variable {codec} {own : Lease} {snapshot : List Lease} {responses : List (WatchResponse K V)}
variable {bad : Delivery K V → Bool} {p : Ipv4Network → Bool} {d : Delivery K V} {ds : List (Delivery K V)}

theorem cleanedEvents : (cleaned bad responses).flatMap WatchResponse.events =
    (responses.flatMap WatchResponse.events).filter (fun d => !bad d) := by
  rw [cleaned, List.flatMap_map, List.filter_flatMap]

/- The events about the subnets looked at, and their deliveries. -/
theorem aboutDecoded : about p (ds.filterMap (decoded codec)) =
    ds.filterMap (fun d => (decoded codec d).filter (fun e => p e.lease.subnet)) := by
  rw [about, List.filter_filterMap]

theorem nothingDecoded : ds.filterMap (fun d => (decoded codec d).filter (fun e => p e.lease.subnet)) = [] ↔
    ∀ d ∈ ds, ∀ e, decoded codec d = some e → p e.lease.subnet = false := by
  simp [List.filterMap_eq_nil_iff, Option.filter_eq_none_iff]

/- All records of a cleaned watch are delivered. -/
theorem cleanedDelivered (live : ∀ resp ∈ responses, resp.canceled = false)
    (responds : ∀ d ∈ responses.flatMap WatchResponse.events, Responds d)
    (covers : ∀ d, readable codec d = false → bad d = true) :
    deliveredEvents codec (cleaned bad responses) =
        ((responses.flatMap WatchResponse.events).filter (fun d => !bad d)).filterMap (decoded codec) ∧
      ∀ wr ∈ (watchSubnets codec (cleaned bad responses)).1.flatten, wr.snapshot = [] := by
  have clean : ∀ resp ∈ cleaned bad responses, clear codec resp = true := by
    intro resp mem
    obtain ⟨from_, _, rfl⟩ := List.mem_map.mp mem
    refine List.all_eq_true.mpr fun d kept => ?_
    by_contra unread
    have isBad := covers d (Bool.eq_false_of_not_eq_true unread)
    simpa [isBad] using (List.mem_filter.mp kept).2
  obtain ⟨delivered, plain⟩ := @watchedPrefix K V codec (cleaned bad responses)
    (fun resp mem => by
      obtain ⟨from_, mem', rfl⟩ := List.mem_map.mp mem
      exact live from_ mem')
    (fun d mem => by
      rw [cleanedEvents] at mem
      exact responds d (List.mem_of_mem_filter mem))
  rw [List.takeWhile_eq_self_iff.mpr clean, cleanedEvents] at delivered
  exact ⟨delivered, plain⟩

theorem sparedOther : spared codec own bad responses own.subnet = false := by
  simp [spared]

theorem sparedClean (mem : d ∈ responses.flatMap WatchResponse.events) (isBad : bad d = true) {e : LeaseWatchEvent}
    (found : decoded codec d = some e) : spared codec own bad responses e.lease.subnet = false := by
  rw [spared, Bool.and_eq_false_iff]
  refine .inr (List.all_eq_false.mpr ⟨d, mem, ?_⟩)
  simp [isBad, (decodedSource found).1]

theorem splitEvents : responses.flatMap WatchResponse.events =
    (responses.takeWhile (clear codec)).flatMap WatchResponse.events ++
      (responses.dropWhile (clear codec)).flatMap WatchResponse.events := by
  rw [← List.flatMap_append, List.takeWhile_append_dropWhile]

theorem deliveredIff (live : ∀ resp ∈ responses, resp.canceled = false)
    (responds : ∀ d ∈ responses.flatMap WatchResponse.events, Responds d)
    (covers : ∀ d, readable codec d = false → bad d = true)
    (named : ∀ d ∈ responses.flatMap WatchResponse.events, bad d = true → ∀ e, decoded codec d = some e →
      p e.lease.subnet = false) :
    about p (deliveredEvents codec responses) = about p (deliveredEvents codec (cleaned bad responses)) ↔
      NoneLost codec p responses := by
  have good : ((responses.flatMap WatchResponse.events).filter (fun d => !bad d)).filterMap
        (fun d => (decoded codec d).filter (fun e => p e.lease.subnet)) =
      (responses.flatMap WatchResponse.events).filterMap
        (fun d => (decoded codec d).filter (fun e => p e.lease.subnet)) := by
    rw [List.filterMap_filter]
    refine List.filterMap_congr fun d mem => ?_
    cases isBad : bad d with
    | false => rfl
    | true => exact (Option.filter_eq_none_iff.mpr (by simpa using named d mem isBad)).symm
  rw [(watchedPrefix live responds).1, (cleanedDelivered live responds covers).1, aboutDecoded, aboutDecoded, good,
    @splitEvents _ _ codec responses, List.filterMap_append, List.self_eq_append_right, nothingDecoded]
  rfl

theorem emittedOfDelivered (fresh : Keyed.Distinct Lease.subnet snapshot)
    (live : ∀ resp ∈ responses, resp.canceled = false)
    (responds : ∀ d ∈ responses.flatMap WatchResponse.events, Responds d)
    (covers : ∀ d, readable codec d = false → bad d = true)
    (same : about p (deliveredEvents codec responses) = about p (deliveredEvents codec (cleaned bad responses))) :
    about p (watched codec own snapshot responses).emitted =
      about p (watched codec own snapshot (cleaned bad responses)).emitted := by
  rw [watchedEmits fresh (watchedPrefix live responds).2, watchedEmits fresh (cleanedDelivered live responds covers).2]
  have later := @LeaseWatcher.updateSameAbout p ⟨own, snapshot⟩ _ _ fresh same
  simp only [about, List.filter_append] at later ⊢
  rw [later]

end Spared

section Main
variable {K V : Type} {codec : Codec K V} {own : Lease} {snapshot : List Lease} {responses : List (WatchResponse K V)}
variable {parseMac : String → Option MacAddr6} {p : Ipv4Network → Bool} {bad : Delivery K V → Bool}

theorem handledAbout {events : List LeaseWatchEvent} : about p (handledEvents parseMac events) = about p events ↔
    about p (events.dropWhile (fun e => decide (WellFormedVtep parseMac e))) = [] := by
  have split : about p events = about p (handledEvents parseMac events) ++
      about p (events.dropWhile (fun e => decide (WellFormedVtep parseMac e))) := by
    rw [about, about, about, ← List.filter_append, handledEvents, List.takeWhile_append_dropWhile]
  constructor
  · intro same
    rw [← same] at split
    exact List.self_eq_append_right.mp split
  · intro none_
    rw [split, none_, List.append_nil]

/- What stops the loop is behind the snapshot, whose VTEPs can be read. -/
theorem emittedDropped (fresh : Keyed.Distinct Lease.subnet snapshot)
    (vteps : ∀ nl ∈ snapshot, nl.subnet ≠ own.subnet → WellFormedVtep parseMac ⟨nl, .put⟩)
    (mine : p own.subnet = false) {events : List LeaseWatchEvent} (stored : ∀ e ∈ events, FromStore e) :
    about p (((snapshot.filter (fun nl => decide (nl.subnet ≠ own.subnet))).map (fun nl => LeaseWatchEvent.mk nl .put) ++
        (LeaseWatcher.update ⟨own, snapshot⟩ events).1).dropWhile (fun e => decide (WellFormedVtep parseMac e))) = [] ↔
      ∀ e ∈ events.dropWhile (passes parseMac own.subnet), p e.lease.subnet = false := by
  have puts : ∀ e ∈ (snapshot.filter (fun nl => decide (nl.subnet ≠ own.subnet))).map
      (fun nl => (⟨nl, .put⟩ : LeaseWatchEvent)), decide (WellFormedVtep parseMac e) = true := by
    intro e mem
    obtain ⟨nl, kept, rfl⟩ := List.mem_map.mp mem
    obtain ⟨inside, other⟩ := List.mem_filter.mp kept
    exact decide_eq_true (vteps nl inside (of_decide_eq_true other))
  have held : HoldsReadable parseMac ⟨own, snapshot⟩ := by
    intro s l other found
    obtain ⟨mem, rfl⟩ := Keyed.lookupSome found
    exact vteps l mem other
  obtain ⟨w', owner, dropped⟩ := updateDropped fresh held stored
  rw [List.dropWhile_append_of_pos puts, dropped]
  exact aboutNothing (by rw [owner]; exact mine)

/- What the loop of the vxlan backend misses, in terms of the records. -/
theorem droppedIff (live : ∀ resp ∈ responses, resp.canceled = false)
    (responds : ∀ d ∈ responses.flatMap WatchResponse.events, Responds d) (none_ : NoneLost codec p responses) :
    (∀ e ∈ (deliveredEvents codec responses).dropWhile (passes parseMac own.subnet), p e.lease.subnet = false) ↔
      NoneAfter codec p parseMac own responses := by
  rw [NoneAfter, @splitEvents _ _ codec responses, dropWhileFront none_, (watchedPrefix live responds).1,
    dropWhileFilterMap]
  constructor
  · exact fun all d mem e found => all e (List.mem_filterMap.mpr ⟨d, mem, found⟩)
  · intro all e mem
    obtain ⟨d, kept, found⟩ := List.mem_filterMap.mp mem
    exact all d kept e found

theorem deliveredSource (live : ∀ resp ∈ responses, resp.canceled = false)
    (responds : ∀ d ∈ responses.flatMap WatchResponse.events, Responds d) :
    ∀ e ∈ deliveredEvents codec responses, FromStore e := by
  intro e mem
  rw [(watchedPrefix live responds).1] at mem
  obtain ⟨d, _, found⟩ := List.mem_filterMap.mp mem
  exact (decodedSource found).2

/- Without the bad records nothing stops the loop of the vxlan backend. -/
theorem cleanedHandled (fresh : Keyed.Distinct Lease.subnet snapshot)
    (vteps : ∀ nl ∈ snapshot, nl.subnet ≠ own.subnet → WellFormedVtep parseMac ⟨nl, .put⟩)
    (live : ∀ resp ∈ responses, resp.canceled = false)
    (responds : ∀ d ∈ responses.flatMap WatchResponse.events, Responds d)
    (covers : ∀ d, readable codec d = false → bad d = true) (stops : ∀ d, badVtep codec parseMac d = true → bad d = true)
    (mine : p own.subnet = false) :
    about p (handledEvents parseMac (watched codec own snapshot (cleaned bad responses)).emitted) =
      about p (watched codec own snapshot (cleaned bad responses)).emitted := by
  obtain ⟨delivered, plain⟩ := @cleanedDelivered _ _ codec responses bad live responds covers
  have good : ∀ e ∈ deliveredEvents codec (cleaned bad responses),
      FromStore e ∧ passes parseMac own.subnet e = true := by
    intro e mem
    rw [delivered] at mem
    obtain ⟨d, kept, found⟩ := List.mem_filterMap.mp mem
    have wf : WellFormedVtep parseMac e := by
      by_contra broken
      have isBad := stops d (by simp [badVtep, found, broken])
      simpa [isBad] using (List.mem_filter.mp kept).2
    exact ⟨(decodedSource found).2, by simp [passes, wf]⟩
  rw [handledAbout, watchedEmits fresh plain, emittedDropped fresh vteps mine (fun e mem => (good e mem).1),
    List.dropWhile_eq_nil_iff.mpr (fun e mem => (good e mem).2)]
  simp

theorem badRecordsSparedIff (fresh : Keyed.Distinct Lease.subnet snapshot)
    (vteps : ∀ nl ∈ snapshot, nl.subnet ≠ own.subnet → WellFormedVtep parseMac ⟨nl, .put⟩)
    (live : ∀ resp ∈ responses, resp.canceled = false)
    (responds : ∀ d ∈ responses.flatMap WatchResponse.events, Responds d) (mtu : Nat) (n : VxlanNetwork) (k : Kernel) :
    let unreadable := fun d => !readable codec d
    let useless := fun d => !readable codec d || badVtep codec parseMac d
    let others := spared codec own unreadable responses
    let peers := spared codec own useless responses
    (UdpSpared codec others mtu own snapshot responses (cleaned unreadable responses) ↔ NoneLost codec others responses) ∧
      (VxlanSpared codec peers parseMac n k own snapshot responses (cleaned useless responses) ↔
        NoneLost codec peers responses ∧ NoneAfter codec peers parseMac own responses) := by
  intro unreadable useless others peers
  constructor
  · have covers : ∀ d, readable codec d = false → unreadable d = true := by
      intro d unread
      simp [unreadable, unread]
    have iff := deliveredIff (p := others) live responds covers (fun d mem isBad e found => sparedClean mem isBad found)
    refine ⟨fun spares => iff.mp spares.delivered, fun none_ => ?_⟩
    have same := iff.mpr none_
    have emitted := @emittedOfDelivered _ _ _ own _ _ _ _ fresh live responds covers same
    refine ⟨⟨same, emitted⟩, ?_⟩
    rw [udpRoutesEmitted, udpRoutesEmitted, routesAbout, routesAbout, emitted]
  · have covers : ∀ d, readable codec d = false → useless d = true := by
      intro d unread
      simp [useless, unread]
    have iff := deliveredIff (p := peers) live responds covers (fun d mem isBad e found => sparedClean mem isBad found)
    have emitted := @emittedOfDelivered _ _ _ own _ _ _ peers fresh live responds covers
    have clean := @cleanedHandled _ _ codec own _ _ _ peers _ fresh vteps live responds covers
      (fun d stops => by simp [useless, stops]) sparedOther
    have applied : NoneLost codec peers responses →
        (about peers (handledEvents parseMac (watched codec own snapshot responses).emitted) =
          about peers (handledEvents parseMac (watched codec own snapshot (cleaned useless responses)).emitted) ↔
        NoneAfter codec peers parseMac own responses) := by
      intro none_
      rw [clean, ← emitted (iff.mpr none_), handledAbout, watchedEmits fresh (watchedPrefix live responds).2,
        emittedDropped fresh vteps sparedOther (deliveredSource live responds), droppedIff live responds none_]
    constructor
    · intro spares
      have none_ := iff.mp spares.delivered
      exact ⟨none_, (applied none_).mp spares.handled⟩
    · rintro ⟨none_, after⟩
      have same := iff.mpr none_
      have handled := (applied none_).mpr after
      exact ⟨⟨same, emitted same⟩, handled, fun s looked => routeAbout looked handled⟩

end Main

/- Keys and values that may be none of a subnet's. -/
private def mixed : Codec (Option Ipv4Network) (Option LeaseAttrs) where
  key := some
  extractIpAndSubnet := fun k => (okOr "invalid key" k).map (fun sn => (sn, none))
  toVec := some
  fromSlice := okOr "invalid value"
  before := fun a b => decide ((a.map subnetName).getD [] < (b.map subnetName).getD [])
  startsWith := fun k start => decide (k = start)

private def knownMac (text : String) : Option MacAddr6 := [("0e:2a:00:00:00:04", 0x0E2A00000004)].lookup text

private def watching : VxlanNetwork where
  subnetLease := { Lease.default 0 with subnet := cidr 0x0A000100 24 }
  extIface := { iface := ⟨2, 1500, "eth0"⟩, ifaceAddr := 1, extAddr := some 1 }
  device := ⟨⟨{ index := 3, name := "flannel.1", mtu := 1450 }, .vxlan { vxlanId := 1 }⟩, false⟩
  mtu := 1500

private def brought (k : Option Ipv4Network) (data : List (String × Json)) :
    WatchResponse (Option Ipv4Network) (Option LeaseAttrs) where
  events := [⟨.put ⟨k, some { backendType := some "vxlan", backendData := some (.obj data) }, 1⟩, some 100, 0⟩]
  revision := 2
  canceled := false

private def goodPut := brought (some (cidr 0x0A000400 24)) [("VNI", .num 1), ("VtepMAC", .str "0e:2a:00:00:00:04")]

private def noMac := brought (some (cidr 0x0A000300 24)) [("VNI", .num 1)]

private def noKey := brought none []

private def notRead (d : Delivery (Option Ipv4Network) (Option LeaseAttrs)) : Bool := !readable mixed d

private def notUsed (d : Delivery (Option Ipv4Network) (Option LeaseAttrs)) : Bool :=
  !readable mixed d || badVtep mixed knownMac d

theorem recordsBehindLost :
    ¬UdpSpared mixed (spared mixed watching.subnetLease notRead [noKey, goodPut]) 1472 watching.subnetLease []
      [noKey, goodPut] (cleaned notRead [noKey, goodPut]) ∧
    ¬VxlanSpared mixed (spared mixed watching.subnetLease notUsed [noMac, goodPut]) knownMac watching .empty
      watching.subnetLease [] [noMac, goodPut] (cleaned notUsed [noMac, goodPut]) :=
  ⟨fun spares => absurd spares.delivered (by decide), fun spares => absurd spares.handled (by decide)⟩

theorem recordsBeforeSpared :
    UdpSpared mixed (spared mixed watching.subnetLease notRead [goodPut, noMac, noKey]) 1472 watching.subnetLease []
      [goodPut, noMac, noKey] (cleaned notRead [goodPut, noMac, noKey]) ∧
    VxlanSpared mixed (spared mixed watching.subnetLease notUsed [goodPut, noMac, noKey]) knownMac watching .empty
      watching.subnetLease [] [goodPut, noMac, noKey] (cleaned notUsed [goodPut, noMac, noKey]) := by
  have responds : ∀ d ∈ [goodPut, noMac, noKey].flatMap WatchResponse.events, Responds d := by
    intro d mem kv _
    have answered : d.ttl = some 100 ∧ d.now = 0 :=
      (by decide : ∀ d ∈ [goodPut, noMac, noKey].flatMap WatchResponse.events, d.ttl = some 100 ∧ d.now = 0) d mem
    exact ⟨100, answered.1, .inr ⟨_, by rw [answered.2]; exact if_pos (by decide)⟩⟩
  obtain ⟨udp, vxlan⟩ := @badRecordsSparedIff _ _ mixed watching.subnetLease [] [goodPut, noMac, noKey] knownMac (by decide)
    (by decide) (by decide) responds 1472 watching .empty
  exact ⟨udp.mpr (nothingDecoded.mp (by decide)), vxlan.mpr ⟨nothingDecoded.mp (by decide), nothingDecoded.mp (by decide)⟩⟩

end FlannelNg