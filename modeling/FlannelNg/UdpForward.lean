import FlannelNg.UdpNetwork

/-! Whether a packet is still a valid IPv4 packet after the UDP backend forwarded it. The
TTL is a high byte of the checksummed header, and the checksum is not written. -/
namespace FlannelNg
open Cidr Outcome OnesComplement

/- In bytes; the header length field counts words of four. -/
def headerLen (bytes : Bytes) : Nat := 4 * (bytes.headD 0 &&& 0xF).toNat

def HeaderChecks (bytes : Bytes) : Prop := headerLen bytes ≤ bytes.length ∧ Checks (bytes.take (headerLen bytes))

instance (bytes : Bytes) : Decidable (HeaderChecks bytes) := inferInstanceAs (Decidable (_ ∧ _))

/-- An IPv4 packet with a complete header, with or without options, and its correct checksum. -/
structure Ipv4Packet extends IpSlice where
  isIpv4 : toIpSlice.version = 4
  ihl : serializedSize ≤ headerLen slice
  checks : HeaderChecks slice

/- What forwarding by one hop may change. -/
structure StaysValid (before after : Bytes) : Prop where
  ttl : (after.getD 8 0).toNat + 1 = (before.getD 8 0).toNat
  alive : 1 ≤ (after.getD 8 0).toNat
  checks : HeaderChecks after
  length : after.length = before.length
  others : ∀ i, i ≠ 8 → i ≠ 10 → i ≠ 11 → after[i]? = before[i]?

section Decrement
variable {ip : IpSlice} {routes : List RouteEntry} {mtu : Nat}

theorem setHeaderLen {bytes : Bytes} {v : UInt8} : headerLen (bytes.set 8 v) = headerLen bytes := by
  cases bytes <;> rfl

theorem setHeader {bytes : Bytes} {v : UInt8} :
    (bytes.set 8 v).take (headerLen (bytes.set 8 v)) = (bytes.take (headerLen bytes)).set 8 v := by
  rw [setHeaderLen, List.take_set]

/- The checksum, correct before, is wrong afterwards; a TTL of 0 stays as it is. -/
theorem decrementInvalid (ihl : serializedSize ≤ headerLen ip.slice) (checks : HeaderChecks ip.slice) :
    ¬StaysValid ip.slice (decrementTtl ip).slice := by
  intro stays
  have ttl := stays.ttl
  have after := stays.checks.2
  unfold decrementTtl at ttl after
  split at ttl
  · rename_i positive
    rw [if_pos positive] at after
    have same : (ip.setTtl (ip.ttl - 1)).slice = ip.slice.set 8 (ip.ttl - 1) := rfl
    rw [same, setHeader] at after
    have lower : (ip.ttl - 1).toNat + 1 = ip.ttl.toNat := by
      have one : (1 : UInt8) ≤ ip.ttl := by
        rw [UInt8.le_iff_toNat_le]
        exact UInt8.lt_iff_toNat_lt.mp positive
      rw [UInt8.toNat_sub_of_le _ _ one]
      exact Nat.sub_add_cancel (UInt8.le_iff_toNat_le.mp one)
    have here : (ip.slice.take (headerLen ip.slice))[2 * 4]? = some ip.ttl := by
      rw [List.getElem?_take_of_lt (Nat.lt_of_lt_of_le (by decide) ihl)]
      exact byteAt 8
    exact loweredFails checks.2 here lower after
  · omega

theorem forwardedValidIff (packet : Ipv4Packet) (routes : List RouteEntry) (mtu : Nat) :
    ((∀ d, sendUdpPacket packet.slice routes = .ok (some d) → StaysValid packet.slice d.payload) ↔
      findRoute routes packet.destination = .ok none) ∧
    ((∀ bytes, handleInput mtu routes (.datagram packet.slice) = .ok (some (.written bytes)) →
      StaysValid packet.slice bytes) ↔ mtu < serializedSize) := by
  have invalid := decrementInvalid packet.ihl packet.checks
  constructor
  · have sent := @sentPacket packet.slice routes packet.long
    have four : (IpSlice.mk packet.slice packet.long).version = 4 := packet.isIpv4
    rw [if_neg (not_not.mpr four)] at sent
    rw [findRouteFind, Except.ok.injEq, sent]
    change _ ↔ routes.find? (fun it => routedBy packet.destination it.dst) = none
    cases found : routes.find? (fun it => routedBy packet.destination it.dst) with
    | none => exact ⟨fun _ => rfl, fun _ d none => by simp at none⟩
    | some route =>
      refine ⟨fun valid => ?_, fun missed => by simp at missed⟩
      have bad := valid ⟨⟨route.nextHop, 8285⟩, (decrementTtl packet.toIpSlice).slice⟩ rfl
      exact absurd bad invalid
  · constructor
    · intro valid
      by_contra room
      have long : serializedSize ≤ (packet.slice.take mtu).length := by
        rw [List.length_take]
        exact Nat.le_min.mpr ⟨Nat.le_of_not_lt room, packet.long⟩
      have stays := valid (decrementTtl ⟨_, long⟩).slice (by rw [handleInput, newLong long]; rfl)
      have whole : packet.slice.take mtu = packet.slice := by
        have length := stays.length
        rw [decrementLength] at length
        exact List.take_eq_self_iff _ |>.mpr (by rw [List.length_take] at length; omega)
      simp only [whole] at stays
      exact invalid stays
    · intro short bytes written
      have cut : (packet.slice.take mtu).length < serializedSize := by
        rw [List.length_take]
        omega
      simp [handleInput, newShort cut, bind, Except.bind] at written

end Decrement

/- An echo request from 172.17.43.0 to 172.17.5.2, without its data. -/
private def echoRequest : Ipv4Packet where
  slice := [0x45, 0x00, 0x00, 0x54, 0x52, 0x83, 0x40, 0x00, 0x3f, 0x01, 0x61, 0x01, 0xac, 0x11, 0x2b, 0x00, 0xac, 0x11,
    0x05, 0x02]
  long := by decide
  isIpv4 := by decide
  ihl := by decide
  checks := by decide

/- Sent to the peer, it leaves with a TTL less by one and its old checksum. -/
theorem checksumNotUpdated : ∃ d,
    sendUdpPacket echoRequest.slice [⟨cidr 0xAC110500 24, 0xC613F96F⟩] = .ok (some d) ∧
      (d.payload.getD 8 0).toNat = 0x3e ∧ ¬HeaderChecks d.payload ∧ ¬StaysValid echoRequest.slice d.payload := by
  refine ⟨⟨⟨0xC613F96F, 8285⟩, echoRequest.slice.set 8 0x3e⟩, by decide, by decide, by decide, fun stays => ?_⟩
  exact absurd stays.checks (by decide)

end FlannelNg
