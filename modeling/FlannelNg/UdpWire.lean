import FlannelNg.ClusterDelivery

/-! The data planes of many nodes and the wire between them. A datagram that was sent may
arrive late, more than once or never, and nothing else arrives. -/
namespace FlannelNg
open Cidr Outcome Runs OnesComplement

structure Wire (N : Type) where
  loop : N → UdpLoop
  sent : List Datagram

/- A packet from the TUN device of a node, lease events for it, or a datagram that arrives,
whose bytes the TUN device may fail to take. -/
inductive WireAction (N : Type) where
  | read (n : N) (packet : Bytes)
  | learn (n : N) (events : List LeaseWatchEvent)
  | arrive (n : N) (d : Datagram) (failed : Option String)

/- A round of the loop. A failing write to the TUN device ends it. -/
def UdpLoop.round (mtu : Nat) (loop : UdpLoop) (input : Input) : Option String → UdpLoop
  | none => loop.step mtu input
  | some failed =>
    match handleInput mtu loop.routes input with
    | .ok (some (.written _)) => if loop.exited.isSome then loop else { loop with exited := some (.error (.bail failed)) }
    | _ => loop.step mtu input

def Effect.datagrams : Effect → List Datagram
  | .sent (some d) => [d]
  | _ => []

namespace Wire
variable {N : Type} [DecidableEq N] (addr : N → SocketAddr) (mtu : N → Nat)

def start : Wire N := ⟨fun _ => {}, []⟩

def handle (w : Wire N) (n : N) (input : Input) (failed : Option String) : Wire N :=
  let loop := (w.loop n).round (mtu n) input failed
  { loop := Function.update w.loop n loop
    sent := w.sent ++ (loop.handled.drop (w.loop n).handled.length).flatMap (fun h => h.2.datagrams) }

/- Only what was sent to the node arrives there. -/
def step (w : Wire N) : WireAction N → Wire N
  | .read n packet => w.handle mtu n (.packet packet) none
  | .learn n events => w.handle mtu n (.events events) none
  | .arrive n d failed => if d ∈ w.sent ∧ d.addr = addr n then w.handle mtu n (.datagram d.payload) failed else w

end Wire

/- What the select loop does with an input. -/
inductive Handles (mtu : Nat) (routes : List RouteEntry) : Input → Effect → Prop where
  | datagram {payload ip} (whole : IpSlice.slice ip = payload.take mtu) :
      Handles mtu routes (.datagram payload) (.written (decrementTtl ip).slice)
  | packet {packet ip route} (whole : IpSlice.slice ip = packet.take mtu) (isIpv4 : ip.version = 4)
      (routed : findRoute routes ip.destination = .ok (some route)) :
      Handles mtu routes (.packet packet) (.sent (some ⟨⟨route.nextHop, 8285⟩, (decrementTtl ip).slice⟩))
  | dropped {packet} : Handles mtu routes (.packet packet) (.sent none)
  | events {events} : Handles mtu routes (.events events) (.routed (events.foldl handleLeaseEvent routes))

/- The routes that these inputs leave. -/
def routesAfter (handled : List (Input × Effect)) : List RouteEntry :=
  ((handled.map Prod.fst).flatMap Input.leaseEvents).foldl handleLeaseEvent []

/-- Each input had the effect that the routes of its time give. -/
structure Explained (mtu : Nat) (loop : UdpLoop) : Prop where
  routes : loop.routes = routesAfter loop.handled
  effects : ∀ pre input effect post, loop.handled = pre ++ (input, effect) :: post → Handles mtu (routesAfter pre) input effect

section Loop
variable {mtu : Nat} {loop : UdpLoop} {input : Input} {effect : Effect} {routes : List RouteEntry}

theorem packetHandles {packet : Bytes} (handled : handleInput mtu routes (.packet packet) = .ok (some effect)) :
    Handles mtu routes (.packet packet) effect := by
  rcases Nat.lt_or_ge (packet.take mtu).length serializedSize with short | long
  · have failed : ignoreError (sendUdpPacket (packet.take mtu) routes) = .ok none := by
      simp [sendUdpPacket, newShort short, bind, Except.bind, ignoreError]
    simp only [handleInput, failed] at handled
    split at handled
    · cases handled
    · cases handled
      exact .dropped
  · have some_ : (packet.take mtu).length ≠ 0 := Nat.ne_of_gt (Nat.lt_of_lt_of_le (by decide) long)
    simp only [handleInput, if_neg some_, sentPacket long, ignoreError] at handled
    cases handled
    by_cases isIpv4 : (IpSlice.mk (packet.take mtu) long).version = 4
    · rw [if_neg (not_not.mpr isIpv4)]
      cases found : routes.find? (fun it => routedBy (IpSlice.mk (packet.take mtu) long).destination it.dst) with
      | none => exact .dropped
      | some route => exact .packet rfl isIpv4 (by rw [findRouteFind, found])
    · rw [if_pos isIpv4]
      exact .dropped

theorem inputHandles (handled : handleInput mtu routes input = .ok (some effect)) : Handles mtu routes input effect := by
  cases input with
  | packet packet => exact packetHandles handled
  | events events =>
    cases handled
    exact .events
  | datagram payload =>
    simp only [handleInput, bindOk] at handled
    obtain ⟨ip, made, last⟩ := handled
    cases last
    unfold IpSlice.new at made
    split at made
    · cases made
    · cases made
      exact .datagram rfl

theorem handlesRoutes (handles : Handles mtu routes input effect) :
    effect.routes routes = input.leaseEvents.foldl handleLeaseEvent routes := by
  cases handles <;> rfl

/- A round handles its input, or changes neither the routes nor what was handled. -/
theorem stepOutcome : ((loop.step mtu input).handled = loop.handled ∧ (loop.step mtu input).routes = loop.routes) ∨
    ∃ effect, Handles mtu loop.routes input effect ∧ (loop.step mtu input).handled = loop.handled ++ [(input, effect)] ∧
      (loop.step mtu input).routes = effect.routes loop.routes := by
  unfold UdpLoop.step
  split
  · exact .inl ⟨rfl, rfl⟩
  · split
    · exact .inl ⟨rfl, rfl⟩
    · exact .inl ⟨rfl, rfl⟩
    · rename_i effect handled
      exact .inr ⟨effect, inputHandles handled, rfl, rfl⟩

theorem roundOutcome {failed : Option String} :
    ((loop.round mtu input failed).handled = loop.handled ∧ (loop.round mtu input failed).routes = loop.routes) ∨
    ∃ effect, Handles mtu loop.routes input effect ∧
      (loop.round mtu input failed).handled = loop.handled ++ [(input, effect)] ∧
      (loop.round mtu input failed).routes = effect.routes loop.routes := by
  cases failed with
  | none => exact stepOutcome
  | some message =>
    rw [UdpLoop.round]
    split
    · split <;> exact .inl ⟨rfl, rfl⟩
    · exact stepOutcome

theorem routesSnoc {pre : List (Input × Effect)} :
    routesAfter (pre ++ [(input, effect)]) = input.leaseEvents.foldl handleLeaseEvent (routesAfter pre) := by
  simp [routesAfter]

theorem roundExplained {failed : Option String} (explained : Explained mtu loop) :
    Explained mtu (loop.round mtu input failed) := by
  rcases @roundOutcome mtu loop input failed with ⟨same, routes⟩ | ⟨effect, handles, more, routes⟩
  · exact ⟨by rw [same, routes, explained.routes], by rw [same]; exact explained.effects⟩
  · refine ⟨by rw [more, routes, routesSnoc, handlesRoutes handles, explained.routes], ?_⟩
    intro pre input' effect' post parts
    rw [more] at parts
    rcases List.eq_nil_or_concat post with rfl | ⟨post, last, rfl⟩
    · obtain ⟨rfl, one⟩ := List.append_inj' parts rfl
      cases List.singleton_inj.mp one
      exact explained.routes ▸ handles
    · rw [List.concat_eq_append, ← List.cons_append, ← List.append_assoc] at parts
      exact explained.effects pre input' effect' post (List.append_inj' parts rfl).1

end Loop

namespace Wire
variable {N : Type} [DecidableEq N] {addr : N → SocketAddr} {mtu : N → Nat} {w : Wire N} {n : N} {input : Input}
variable {actions : List (WireAction N)} {failed : Option String}

/- What was sent is a packet that some node read, and what arrived was sent to the node. -/
structure Sound (addr : N → SocketAddr) (mtu : N → Nat) (w : Wire N) : Prop where
  explained : ∀ n, Explained (mtu n) (w.loop n)
  sent : ∀ d ∈ w.sent, ∃ m packet, (Input.packet packet, Effect.sent (some d)) ∈ (w.loop m).handled
  arrived : ∀ n payload effect, (Input.datagram payload, effect) ∈ (w.loop n).handled → ⟨addr n, payload⟩ ∈ w.sent

/- What a node handles is added to what it has handled, and its datagram to those sent. -/
theorem handleOutcome : (∀ m, ((w.handle mtu n input failed).loop m).handled = (w.loop m).handled) ∧
      (w.handle mtu n input failed).sent = w.sent ∨
    ∃ effect, Handles (mtu n) (w.loop n).routes input effect ∧
      (∀ m, ((w.handle mtu n input failed).loop m).handled =
        if m = n then (w.loop n).handled ++ [(input, effect)] else (w.loop m).handled) ∧
      (w.handle mtu n input failed).sent = w.sent ++ effect.datagrams := by
  have loops : ∀ m, ((w.handle mtu n input failed).loop m).handled =
      if m = n then ((w.loop n).round (mtu n) input failed).handled else (w.loop m).handled := by
    intro m
    simp only [handle, Function.update_apply]
    split <;> rfl
  rcases @roundOutcome (mtu n) (w.loop n) input failed with ⟨same, _⟩ | ⟨effect, handles, more, _⟩
  · refine .inl ⟨fun m => ?_, by simp [handle, same]⟩
    rw [loops, same]
    split
    · rename_i here
      rw [here]
    · rfl
  · exact .inr ⟨effect, handles, fun m => by rw [loops, more], by simp [handle, more]⟩

theorem handleSound (sound : Sound addr mtu w) (under : ∀ payload, input = .datagram payload → ⟨addr n, payload⟩ ∈ w.sent) :
    Sound addr mtu (w.handle mtu n input failed) := by
  have explained : ∀ m, Explained (mtu m) ((w.handle mtu n input failed).loop m) := by
    intro m
    simp only [handle, Function.update_apply]
    split
    · rename_i here
      subst here
      exact roundExplained (sound.explained m)
    · exact sound.explained m
  rcases @handleOutcome _ _ mtu w n input failed with ⟨handled, sent⟩ | ⟨effect, handles, handled, sent⟩
  · refine ⟨explained, ?_, ?_⟩
    · simp only [handled, sent]
      exact sound.sent
    · simp only [handled, sent]
      exact sound.arrived
  · have kept : ∀ m h, h ∈ (w.loop m).handled → h ∈ ((w.handle mtu n input failed).loop m).handled := by
      intro m h member
      rw [handled]
      split
      · rename_i here
        exact List.mem_append_left _ (here ▸ member)
      · exact member
    refine ⟨explained, ?_, ?_⟩
    · intro d member
      rw [sent, List.mem_append] at member
      rcases member with old | new
      · obtain ⟨m, packet, mem⟩ := sound.sent d old
        exact ⟨m, packet, kept m _ mem⟩
      · refine ⟨n, ?_⟩
        rw [handled, if_pos rfl]
        cases handles with
        | @packet packet ip route whole isIpv4 routed =>
          cases List.mem_singleton.mp new
          exact ⟨packet, by simp⟩
        | datagram | dropped | events => cases new
    · intro m payload effect' member
      rw [sent, List.mem_append]
      rw [handled] at member
      split at member
      · rename_i here
        subst here
        rcases List.mem_append.mp member with old | new
        · exact .inl (sound.arrived m payload effect' old)
        · cases List.mem_singleton.mp new
          exact .inl (under payload rfl)
      · exact .inl (sound.arrived m payload effect' member)

theorem stepSound {a : WireAction N} (sound : Sound addr mtu w) : Sound addr mtu (w.step addr mtu a) := by
  cases a with
  | read n packet => exact handleSound sound nofun
  | learn n events => exact handleSound sound nofun
  | arrive n d failed =>
    simp only [step]
    split
    · rename_i under
      refine handleSound sound fun payload same => ?_
      cases same
      rw [← under.2]
      exact under.1
    · exact sound

omit [DecidableEq N] in
theorem startSound : Sound addr mtu (start : Wire N) where
  explained := fun _ => ⟨rfl, fun pre _ _ _ parts => absurd parts (by simp [start])⟩
  sent := nofun
  arrived := nofun

theorem runSound : Sound addr mtu (run (step addr mtu) start actions) :=
  @runInvariant _ _ _ (fun _ _ => True) (Sound addr mtu) _ _ (fun _ _ sound _ => stepSound sound) startSound
    (alongOfMem (fun _ _ => trivial))

omit [DecidableEq N] in
theorem loweredTake {before after : Bytes} {hops k : Nat} (lowered : Lowered hops before after) :
    Lowered hops (before.take k) (after.take k) := by
  refine ⟨by rw [List.length_take, List.length_take, lowered.length], ?_, fun i other => ?_⟩
  · have ttl := lowered.ttl
    simp only [List.getD_eq_getElem?_getD, List.getElem?_take] at ttl ⊢
    by_cases inside : 8 < k
    · rw [if_pos inside, if_pos inside, ttl]
    · simp [inside]
  · simp only [List.getElem?_take]
    by_cases inside : i < k
    · rw [if_pos inside, if_pos inside, lowered.others i other]
    · rw [if_neg inside, if_neg inside]

theorem writtenWasRead {payload bytes : Bytes}
    (written : (.datagram payload, .written bytes) ∈ ((run (step addr mtu) start actions).loop n).handled) :
    ∃ m pre packet ip route post,
      ((run (step addr mtu) start actions).loop m).handled =
        pre ++ (.packet packet, .sent (some ⟨addr n, payload⟩)) :: post ∧
      IpSlice.slice ip = packet.take (mtu m) ∧ ip.version = 4 ∧
      findRoute (routesAfter pre) ip.destination = .ok (some route) ∧ addr n = ⟨route.nextHop, 8285⟩ ∧
      Lowered 1 ip.slice payload ∧ Lowered 1 (payload.take (mtu n)) bytes ∧ Lowered 2 (ip.slice.take (mtu n)) bytes := by
  have sound := @runSound _ _ addr mtu actions
  have lowered : Lowered 1 (payload.take (mtu n)) bytes := by
    obtain ⟨pre, post, parts⟩ := List.append_of_mem written
    cases (sound.explained n).effects pre _ _ post parts with
    | datagram whole => exact whole ▸ decrementLowers
  obtain ⟨m, packet, member⟩ := sound.sent _ (sound.arrived n payload _ written)
  obtain ⟨pre, post, parts⟩ := List.append_of_mem member
  have handles := (sound.explained m).effects pre _ _ post parts
  generalize same : (⟨addr n, payload⟩ : Datagram) = d at handles
  cases handles with
  | @packet _ ip route whole isIpv4 routed =>
    obtain ⟨hop, rfl⟩ := Datagram.mk.inj same
    exact ⟨m, pre, packet, ip, route, post, hop ▸ parts, whole, isIpv4, routed, hop, decrementLowers, lowered,
      loweredTrans (loweredTake decrementLowers) lowered⟩

/- The node has not left its loop, and what is under way is long enough for it. -/
structure Running (n : N) (w : Wire N) : Prop where
  loop : (w.loop n).exited = none
  long : ∀ d ∈ w.sent, serializedSize ≤ d.payload.length

/- Whatever a node handles, its datagrams carry whole headers. -/
theorem handleLong {m : N} (long : ∀ d ∈ w.sent, serializedSize ≤ d.payload.length) :
    ∀ d ∈ (w.handle mtu m input failed).sent, serializedSize ≤ d.payload.length := by
  intro d member
  rcases @handleOutcome _ _ mtu w m input failed with ⟨_, sent⟩ | ⟨effect, handles, _, sent⟩
  · exact long d (sent ▸ member)
  · rw [sent, List.mem_append] at member
    rcases member with old | new
    · exact long d old
    · cases handles with
      | @packet packet ip route whole isIpv4 routed =>
        cases List.mem_singleton.mp new
        exact decrementLength.symm ▸ ip.long
      | datagram | dropped | events => cases new

theorem handleRunning {m : N} (running : Running n w) (own : m = n → Readable (mtu n) input ∧ failed = none) :
    Running n (w.handle mtu m input failed) := by
  refine ⟨?_, handleLong running.long⟩
  simp only [handle, Function.update_apply]
  split
  · rename_i same
    obtain ⟨readable, rfl⟩ := own same.symm
    obtain ⟨effect, handled, _⟩ := @readableHandled (mtu n) (w.loop n).routes input readable
    rw [← same, UdpLoop.round, stepHandled running.loop handled]
  · exact running.loop

/- The TUN device of the node neither ends nor fails to take a write. -/
def TunWorks (n : N) : WireAction N → Prop
  | .read m packet => m = n → packet ≠ []
  | .learn _ _ => True
  | .arrive m _ failed => m = n → failed = none

theorem stepRunning {a : WireAction N} (room : serializedSize ≤ mtu n) (running : Running n w) (works : TunWorks n a) :
    Running n (w.step addr mtu a) := by
  cases a with
  | read m packet =>
    refine handleRunning running fun own => ⟨Nat.lt_min.mpr ⟨?_, List.length_pos_iff.mpr (works own)⟩, rfl⟩
    exact Nat.lt_of_lt_of_le (by decide) room
  | learn m events => exact handleRunning running fun _ => ⟨trivial, rfl⟩
  | arrive m d failed =>
    simp only [step]
    split
    · rename_i under
      exact handleRunning running fun own => ⟨Nat.le_min.mpr ⟨room, running.long d under.1⟩, works own⟩
    · exact running

/- Only its own TUN device can end the loop of a node. -/
theorem nodesNeverStopEachOther (addr : N → SocketAddr) (room : serializedSize ≤ mtu n)
    (permitted : ∀ a ∈ actions, TunWorks n a) : ((run (step addr mtu) start actions).loop n).exited = none := by
  have began : Running n (start : Wire N) := ⟨rfl, nofun⟩
  exact (@runInvariant _ _ _ (fun _ a => TunWorks n a) (Running n) _ _
    (fun _ _ running works => stepRunning room running works) began (alongOfMem permitted)).loop

private def socketOf (n : Bool) : SocketAddr := ⟨addressOf n, 8285⟩

private def mtuOf (n : Bool) : Nat := if n then 22 else 1472

private def pingBytes (ttl : UInt8) : Bytes :=
  [0x45, 0, 0, 24, 0, 0, 0, 0, ttl, 1, 0, 0, 10, 0, 0, 5, 10, 0, 0, 9, 8, 0, 1, 2]

private def underWay : Datagram := ⟨socketOf true, pingBytes 63⟩

/- The first node reads a packet for the subnet of the second, whose MTU is smaller; it arrives twice. -/
private def crossing : List (WireAction Bool) := [
  .learn false [⟨{ Lease.default 0 with subnet := cidr 0x0A000008 30, attrs := { publicIp := 2 } }, .put⟩],
  .read false (pingBytes 64), .arrive true underWay none, .arrive true underWay none]

theorem crossingWasRead : ∃ m pre packet ip route post,
    ((run (step socketOf mtuOf) start crossing).loop m).handled =
      pre ++ (.packet packet, .sent (some underWay)) :: post ∧
    IpSlice.slice ip = packet.take (mtuOf m) ∧ ip.version = 4 ∧
    findRoute (routesAfter pre) ip.destination = .ok (some route) ∧ socketOf true = ⟨route.nextHop, 8285⟩ ∧
    Lowered 1 ip.slice underWay.payload ∧ Lowered 1 (underWay.payload.take 22) ((pingBytes 62).take 22) ∧
    Lowered 2 (ip.slice.take 22) ((pingBytes 62).take 22) :=
  @writtenWasRead Bool _ socketOf mtuOf true crossing underWay.payload ((pingBytes 62).take 22) (by decide)

/- The second node answers, and the TUN device of the first fails to take the packet. -/
private def answerUnderWay : Datagram := ⟨socketOf false, (decrementTtl (plainPacket 0x0A000005)).slice⟩

private def crossingBack : List (WireAction Bool) := [
  .learn true [⟨{ Lease.default 0 with subnet := cidr 0x0A000004 30, attrs := { publicIp := 1 } }, .put⟩],
  .read true (plainPacket 0x0A000005).slice, .arrive false answerUnderWay (some "Input/output error"),
  .arrive true underWay none]

theorem crossingRunsOn : ((run (step socketOf mtuOf) start (crossing ++ crossingBack)).loop true).exited = none :=
  nodesNeverStopEachOther socketOf (by decide) (by simp [crossing, crossingBack, TunWorks, plainPacket, pingBytes])

end Wire
end FlannelNg
