import FlannelNg.UdpNetwork

/-! Whether bad input can stop the UDP data plane or disturb what happens to the rest. -/
namespace FlannelNg
open Cidr Outcome Runs OnesComplement

def Input.leaseEvents : Input → List LeaseWatchEvent
  | .events es => es
  | _ => []

/- Of a datagram at least a header fits the buffer, of a packet at least a byte. -/
def Readable (mtu : Nat) : Input → Prop
  | .datagram payload => serializedSize ≤ min mtu payload.length
  | .packet payload => 0 < min mtu payload.length
  | .events _ => True

instance (mtu : Nat) : DecidablePred (Readable mtu)
  | .datagram _ => inferInstanceAs (Decidable (_ ≤ _))
  | .packet _ => inferInstanceAs (Decidable (_ < _))
  | .events _ => inferInstanceAs (Decidable True)

/- Every input is handled, only lease events change the routes, and an input is handled
alike whichever of the datagrams and packets are taken out. -/
def Undisturbed (build : Build) (n : UdpNetwork) (inputs : List Input) : Prop :=
  (∀ pre, pre <+: inputs → ∃ loop, n.run build pre = .ok loop ∧ loop.exited = none ∧
    loop.handled.map Prod.fst = pre ∧ loop.routes = (pre.flatMap Input.leaseEvents).foldl handleLeaseEvent []) ∧
  ∀ keep : Input → Bool, (∀ events, keep (.events events) = true) →
    ∃ whole rest, n.run build inputs = .ok whole ∧ n.run build (inputs.filter keep) = .ok rest ∧
      rest.exited = none ∧ rest.handled = whole.handled.filter (fun h => keep h.1)

section Round
variable {mtu : Nat} {routes : List RouteEntry} {input : Input} {loop other : UdpLoop} {inputs : List Input}

theorem readableHandled (readable : Readable mtu input) : ∃ effect, handleInput mtu routes input = .ok (some effect) ∧
    effect.routes routes = input.leaseEvents.foldl handleLeaseEvent routes := by
  cases input with
  | datagram payload =>
    have long : serializedSize ≤ (payload.take mtu).length := by
      rw [List.length_take]
      exact readable
    exact ⟨_, by rw [handleInput, newLong long]; rfl, rfl⟩
  | packet payload =>
    have some_ : (payload.take mtu).length ≠ 0 := by
      rw [List.length_take]
      exact Nat.ne_of_gt readable
    obtain ⟨sent, ignored⟩ := @sendNoPanic (payload.take mtu) routes
    refine ⟨.sent sent.join, ?_, rfl⟩
    simp only [handleInput, if_neg some_, ignored]
    rfl
  | events events => exact ⟨_, rfl, rfl⟩

/- A short datagram leaves the loop with the error, an empty read breaks it. -/
theorem unreadableExits (unreadable : ¬Readable mtu input) :
    (∃ message, handleInput mtu routes input = .error (.bail message)) ∨ handleInput mtu routes input = .ok none := by
  cases input with
  | datagram payload =>
    have short : (payload.take mtu).length < serializedSize := by
      rw [List.length_take]
      exact Nat.lt_of_not_le unreadable
    exact .inl ⟨_, by rw [handleInput, newShort short]; rfl⟩
  | packet payload =>
    have none_ : (payload.take mtu).length = 0 := by
      rw [List.length_take]
      exact Nat.eq_zero_of_not_pos unreadable
    exact .inr (if_pos none_)
  | events events => exact absurd trivial unreadable

theorem stepHandled {effect : Effect} (running : loop.exited = none)
    (handled : handleInput mtu loop.routes input = .ok (some effect)) : loop.step mtu input = {
      routes := effect.routes loop.routes
      handled := loop.handled ++ [(input, effect)]
      exited := none } := by
  simp [UdpLoop.step, running, handled]

theorem exitedStays (exited : loop.exited ≠ none) : (run (UdpLoop.step mtu) loop inputs).exited ≠ none := by
  induction inputs with
  | nil => exact exited
  | cons input rest ih =>
    rwa [runCons, UdpLoop.step, if_pos (Option.isSome_iff_ne_none.mpr exited)]

/- What a run leaves that no input has stopped. -/
structure Ongoing (loop : UdpLoop) (inputs : List Input) : Prop where
  running : loop.exited = none
  handled : loop.handled.map Prod.fst = inputs
  routes : loop.routes = (inputs.flatMap Input.leaseEvents).foldl handleLeaseEvent []

theorem stepOngoing (going : Ongoing loop inputs) (readable : Readable mtu input) :
    Ongoing (loop.step mtu input) (inputs ++ [input]) := by
  obtain ⟨effect, handled, routes⟩ := @readableHandled _ loop.routes _ readable
  rw [stepHandled going.running handled]
  refine ⟨rfl, ?_, ?_⟩
  · simp [going.handled]
  · rw [routes, going.routes]
    simp

theorem stepExits (unreadable : ¬Readable mtu input) : (loop.step mtu input).exited ≠ none := by
  unfold UdpLoop.step
  by_cases gone : loop.exited.isSome = true
  · rw [if_pos gone]
    exact Option.isSome_iff_ne_none.mp gone
  · rw [if_neg gone]
    rcases @unreadableExits _ loop.routes _ unreadable with ⟨message, failed⟩ | broke
    · simp [failed]
    · simp [broke]

theorem runOngoing (all : ∀ input ∈ inputs, Readable mtu input) : Ongoing (run (UdpLoop.step mtu) {} inputs) inputs := by
  induction inputs using List.reverseRecOn with
  | nil => exact ⟨rfl, rfl, rfl⟩
  | append_singleton pre input ih =>
    rw [runAppend]
    exact stepOngoing (ih (fun i mem => all i (List.mem_append_left _ mem))) (all input (by simp))

theorem runExits {pre post : List Input} (unreadable : ¬Readable mtu input) :
    (run (UdpLoop.step mtu) loop (pre ++ input :: post)).exited ≠ none := by
  rw [runAppend, runCons]
  exact exitedStays (stepExits unreadable)

/- Taking out inputs that are no lease events does not change how the others are handled. -/
theorem filteredHandled {keep : Input → Bool} (events : ∀ events, keep (.events events) = true)
    (all : ∀ input ∈ inputs, Readable mtu input) :
    (run (UdpLoop.step mtu) {} (inputs.filter keep)).handled =
      (run (UdpLoop.step mtu) {} inputs).handled.filter (fun h => keep h.1) := by
  let alike := fun (whole rest : UdpLoop) => whole.exited = none ∧ rest.exited = none ∧ rest.routes = whole.routes ∧
    rest.handled = whole.handled.filter (fun h => keep h.1)
  have simulated : alike (run (UdpLoop.step mtu) {} inputs) (run (UdpLoop.step mtu) {} (inputs.filter keep)) := by
    refine runFiltered (A := Readable mtu) ?_ ?_ ⟨rfl, rfl, rfl, rfl⟩ all
    · rintro whole rest input ⟨going, going', routes, handled⟩ readable keeps
      obtain ⟨effect, done, _⟩ := @readableHandled _ whole.routes _ readable
      rw [stepHandled going done, stepHandled going' (routes.symm ▸ done)]
      exact ⟨rfl, rfl, by rw [routes], by simp [handled, keeps]⟩
    · rintro whole rest input ⟨going, going', routes, handled⟩ readable drops
      obtain ⟨effect, done, changed⟩ := @readableHandled _ whole.routes _ readable
      have quiet : input.leaseEvents = [] := by
        cases input with
        | datagram payload => rfl
        | packet payload => rfl
        | events es => exact absurd (drops.symm.trans (events es)) Bool.false_ne_true
      rw [stepHandled going done]
      refine ⟨rfl, going', ?_, by simp [handled, drops]⟩
      rw [changed, quiet, routes]
      rfl
  exact simulated.2.2.2

end Round

section Network
variable {build : Build} {setup : UdpSetup} {extIface : ExternalInterface} {port : Nat} {net : Ipv4Network}
variable {lease : Lease} {n : UdpNetwork}

theorem madeRuns (made : UdpNetwork.new build setup extIface port net lease = .ok n) : ∃ mtu, n.mtu build = .ok mtu ∧
    ∀ inputs, n.run build inputs = .ok (run (UdpLoop.step mtu) {} inputs) := by
  obtain ⟨mtu, tun, socket, rfl, known, _⟩ := UdpNetwork.newMade made
  refine ⟨mtu, known, fun inputs => ?_⟩
  simp [UdpNetwork.run, known, unwrap, bind, Except.bind, pure, Except.pure]

theorem undisturbedIff (made : UdpNetwork.new build setup extIface port net lease = .ok n) :
    ∃ mtu, n.mtu build = .ok mtu ∧
      ∀ inputs, Undisturbed build n inputs ↔ ∀ input ∈ inputs, Readable mtu input := by
  obtain ⟨mtu, known, runs⟩ := madeRuns made
  refine ⟨mtu, known, fun inputs => ⟨fun undisturbed input mem => ?_, fun all => ⟨?_, ?_⟩⟩⟩
  · by_contra unreadable
    obtain ⟨pre, post, rfl⟩ := List.append_of_mem mem
    obtain ⟨loop, ran, going, _⟩ := undisturbed.1 _ List.prefix_rfl
    rw [runs] at ran
    cases Except.ok.inj ran
    exact runExits unreadable going
  · rintro pre ⟨post, rfl⟩
    have going := @runOngoing mtu pre (fun input mem => all input (List.mem_append_left _ mem))
    exact ⟨_, runs pre, going.running, going.handled, going.routes⟩
  · intro keep events
    have going := @runOngoing mtu (inputs.filter keep) (fun input mem => all input (List.mem_of_mem_filter mem))
    exact ⟨_, _, runs inputs, runs (inputs.filter keep), going.running, filteredHandled events all⟩

end Network

private def readySetup : UdpSetup := { openTun := .ok "flannel0", linkByName := .ok (some 7), ephemeral := 40000 }

private def madeNetwork : UdpNetwork where
  extIface := { iface := ⟨2, 1500, "eth0"⟩, ifaceAddr := 0xC0A80001, extAddr := some 0xC0A80001 }
  subnetLease := { Lease.default 0 with subnet := cidr 0x0A000100 24 }
  port := 8285
  tunNet := cidr 0x0A000100 16
  tunFile := some {
    name := "flannel0"
    linkIndex := 7
    addr := cidr 0x0A000100 32
    mtu := 1472
    route := { linkIndex := 7, dst := some (cidr 0x0A000000 16) } }
  conn := some ⟨0xC0A80001, 8285⟩

theorem fullDatagramsUndisturbed : ∃ mtu, madeNetwork.mtu .checked = .ok mtu ∧
    ∀ inputs, Undisturbed .checked madeNetwork inputs ↔ ∀ input ∈ inputs, Readable mtu input :=
  @undisturbedIff .checked readySetup madeNetwork.extIface 8285 (cidr 0x0A000100 16) madeNetwork.subnetLease madeNetwork
    (by decide)

/- One datagram of a single byte ends the data plane. -/
theorem shortDatagramStops : madeNetwork.run .checked [.datagram [0x45], .packet (List.replicate 20 0x45)] =
      .ok { exited := some (.error (.bail "ip slice length should be at least 20 bytes")) } ∧
    ¬Undisturbed .checked madeNetwork [.datagram [0x45], .packet (List.replicate 20 0x45)] := by
  have ran : madeNetwork.run .checked [.datagram [0x45], .packet (List.replicate 20 0x45)] =
      .ok { exited := some (.error (.bail "ip slice length should be at least 20 bytes")) } := by decide
  refine ⟨ran, fun undisturbed => ?_⟩
  obtain ⟨loop, ran', going, _⟩ := undisturbed.1 _ List.prefix_rfl
  rw [ran] at ran'
  cases ran'
  contradiction

end FlannelNg
