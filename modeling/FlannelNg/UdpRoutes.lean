import FlannelNg.Emitted

/-! The routes of the UDP backend: the list that lease events change, in which one
destination may occur often, and the search for the route of an address. The list
stands for the map from the live subnets to their public addresses. -/
namespace FlannelNg
open Cidr Replay Outcome

structure RouteEntry where
  dst : Ipv4Network
  nextHop : Ipv4Addr
  deriving DecidableEq, Repr

/- A put changes every entry of the destination and then pushes one more. -/
def handleLeaseEvent (routes : List RouteEntry) (e : LeaseWatchEvent) : List RouteEntry :=
  match e.eventType with
  | .put =>
    routes.map (fun r => if r.dst = e.lease.subnet then { r with nextHop := e.lease.attrs.publicIp } else r) ++
      [⟨e.lease.subnet, e.lease.attrs.publicIp⟩]
  | .delete => routes.filter (fun it => decide (it.dst ≠ e.lease.subnet))

def findRoute : List RouteEntry → Ipv4Addr → Res (Option RouteEntry)
  | [], _ => .ok none
  | it :: rest, dst => do
    let dstNetwork ← unwrap (Ipv4Network.new dst it.dst.prefixLen)
    if dstNetwork.network = it.dst.ip then return some it else findRoute rest dst

def routedBy (d : Ipv4Addr) (s : Ipv4Network) : Bool := d &&& s.mask == s.ip

def nextHops (v : View) : Ipv4Network → Option Ipv4Addr := fun s => (v s).map LeaseAttrs.publicIp

variable {routes : List RouteEntry} {d : Ipv4Addr} {s : Ipv4Network} {v : View} {events : List LeaseWatchEvent}

theorem routedByIff : routedBy d s = true ↔ (Ipv4Network.mk d s.prefixLen s.valid).network = s.ip := beq_iff_eq

theorem findRouteFind : findRoute routes d = .ok (routes.find? (fun it => routedBy d it.dst)) := by
  induction routes with
  | nil => rfl
  | cons it rest ih =>
    have built : unwrap (Ipv4Network.new d it.dst.prefixLen) = .ok ⟨d, it.dst.prefixLen, it.dst.valid⟩ :=
      unwrapOk.mpr (newValid it.dst.valid)
    rw [findRoute, built]
    change (if _ then _ else _) = _
    by_cases hit : routedBy d it.dst = true
    · rw [if_pos (routedByIff.mp hit)]
      simp [hit, pure, Except.pure]
    · rw [if_neg (fun same => hit (routedByIff.mpr same)), ih]
      simp [hit]

theorem routedByCanonical (canonical : s.Canonical) : routedBy d s = s.contains d := by
  unfold routedBy Ipv4Network.contains
  rw [show s.ip &&& s.mask = s.ip from canonical]

/- A route whose subnet has host bits matches no address. -/
theorem routedExact : routedBy d s = true ↔ s.Canonical ∧ s.contains d = true := by
  constructor
  · intro hit
    have same : d &&& s.mask = s.ip := beq_iff_eq.mp hit
    have canonical : s.Canonical := by
      change s.ip &&& s.mask = s.ip
      rw [← same, BitVec.and_assoc, BitVec.and_self]
    exact ⟨canonical, (routedByCanonical canonical).symm.trans hit⟩
  · rintro ⟨canonical, inside⟩
    exact (routedByCanonical canonical).trans inside

theorem nextHopsApply {c : Change Ipv4Network LeaseAttrs} :
    nextHops (apply v c) = Function.update (nextHops v) c.key (c.value.map LeaseAttrs.publicIp) := by
  funext k
  simp only [nextHops, applyAt, Function.update_apply]
  split <;> rfl

theorem handleRepresents {e : LeaseWatchEvent} (rep : Keyed.Represents RouteEntry.dst RouteEntry.nextHop routes (nextHops v)) :
    Keyed.Represents RouteEntry.dst RouteEntry.nextHop (handleLeaseEvent routes e) (nextHops (apply v e.change)) := by
  rw [nextHopsApply]
  unfold handleLeaseEvent LeaseWatchEvent.change
  cases e.eventType with
  | put => exact Keyed.representsPut rep (fun _ => rfl) (fun _ => rfl) ⟨rfl, rfl⟩
  | delete => exact Keyed.representsDelete rep

theorem runRepresents (rep : Keyed.Represents RouteEntry.dst RouteEntry.nextHop routes (nextHops v)) :
    Keyed.Represents RouteEntry.dst RouteEntry.nextHop (events.foldl handleLeaseEvent routes)
      (nextHops (replay v (events.map LeaseWatchEvent.change))) := by
  induction events generalizing routes v with
  | nil => exact rep
  | cons e rest ih => exact ih (handleRepresents rep)

theorem forwardingFollowsLeases (own : Lease) (snapshot : List Lease) (batches : List (List LeaseWatchEvent))
    (fresh : Keyed.Distinct Lease.subnet snapshot)
    (canonical : ∀ s attrs, live own snapshot batches s = some attrs → s.Canonical)
    (apart : ∀ s t a b, live own snapshot batches s = some a → live own snapshot batches t = some b → s ≠ t → s.Disjoint t)
    (d : Ipv4Addr) :
    let routes := (LeaseWatcher.emits own snapshot batches).foldl handleLeaseEvent []
    (∀ s attrs, live own snapshot batches s = some attrs → s.contains d = true →
      ∃ route, findRoute routes d = .ok (some route) ∧ route.nextHop = attrs.publicIp) ∧
    (findRoute routes d = .ok none ↔ ∀ s attrs, live own snapshot batches s = some attrs → s.contains d = false) := by
  have rep := @runRepresents [] unknown (LeaseWatcher.emits own snapshot batches) Keyed.representsNil
  rw [LeaseWatcher.emitsReplay fresh] at rep
  generalize live own snapshot batches = v at canonical apart rep
  dsimp only
  rw [findRouteFind]
  constructor
  · intro s attrs present inside
    have only : ∀ t hop, nextHops v t = some hop → routedBy d t = true → t = s := by
      intro t hop known hit
      obtain ⟨b, present', _⟩ := Option.map_eq_some_iff.mp known
      rw [routedByCanonical (canonical t b present')] at hit
      by_contra differ
      exact apart t s b attrs present' present differ d ⟨hit, inside⟩
    obtain ⟨route, found, hop⟩ := Keyed.representsFind rep (by rw [nextHops, present, Option.map_some])
      ((routedByCanonical (canonical s attrs present)).trans inside) only
    exact ⟨route, by rw [found], hop⟩
  · rw [Except.ok.injEq, Keyed.representsFindNone rep]
    constructor
    · intro all s attrs present
      rw [← routedByCanonical (canonical s attrs present)]
      exact all s attrs.publicIp (by rw [nextHops, present, Option.map_some])
    · intro all s hop known
      obtain ⟨attrs, present, _⟩ := Option.map_eq_some_iff.mp known
      rw [routedByCanonical (canonical s attrs present)]
      exact all s attrs present

private def peerLease (ip publicIp : Ipv4Addr) : Lease := {
  Lease.default 0 with
  subnet := cidr ip 24
  attrs := { publicIp } }

private def peerBatches : List (List LeaseWatchEvent) := [
  [⟨peerLease 0x0A000200 7, .put⟩, ⟨peerLease 0x0A000300 3, .put⟩],
  [⟨peerLease 0x0A000400 4, .put⟩, ⟨peerLease 0x0A000300 3, .delete⟩]]

theorem movedPeerFollowed :
    let routes := (LeaseWatcher.emits (peerLease 0x0A000100 1) [peerLease 0x0A000200 2] peerBatches).foldl handleLeaseEvent []
    (∃ route, findRoute routes 0x0A000205 = .ok (some route) ∧ route.nextHop = 7) ∧
      (∃ route, findRoute routes 0x0A0004FF = .ok (some route) ∧ route.nextHop = 4) := by
  have follows := forwardingFollowsLeases (peerLease 0x0A000100 1) [peerLease 0x0A000200 2] peerBatches (by decide)
    (fun s _ present => (by decide : ∀ s ∈ _, s.Canonical) s (liveMember present))
    (fun s t _ _ here there => (by decide : ∀ s ∈ _, ∀ t ∈ _, s ≠ t → s.Disjoint t)
      s (liveMember here) t (liveMember there))
  exact ⟨(follows 0x0A000205).1 (peerLease 0x0A000200 7).subnet _ rfl (by decide),
    (follows 0x0A0004FF).1 (peerLease 0x0A000400 4).subnet _ rfl (by decide)⟩

end FlannelNg
