import FlannelNg.Lib.OnesComplement
import FlannelNg.UdpRoutes

/-! IPv4 packets on their way through the UDP backend: the header fields that are read
and written in place, and the datagram that a packet from the TUN device becomes. -/
namespace FlannelNg
open Cidr Outcome OnesComplement

abbrev serializedSize : Nat := 20

structure IpSlice where
  slice : Bytes
  long : serializedSize ≤ slice.length
  deriving DecidableEq, Repr

namespace IpSlice

def new (slice : Bytes) : Res IpSlice :=
  if short : slice.length < serializedSize then
    .error (.bail s!"ip slice length should be at least {serializedSize} bytes")
  else .ok ⟨slice, Nat.le_of_not_lt short⟩

def byte (ip : IpSlice) (i : Fin serializedSize) : UInt8 := ip.slice.get ⟨i, Nat.lt_of_lt_of_le i.isLt ip.long⟩

def version (ip : IpSlice) : UInt8 := ip.byte 0 >>> 4

def ttl (ip : IpSlice) : UInt8 := ip.byte 8

/- What writing through `ttl_mut` leaves. -/
def setTtl (ip : IpSlice) (ttl : UInt8) : IpSlice := ⟨ip.slice.set 8 ttl, by simp [ip.long]⟩

def destination (ip : IpSlice) : Ipv4Addr :=
  (ip.byte 16).toBitVec ++ (ip.byte 17).toBitVec ++ (ip.byte 18).toBitVec ++ (ip.byte 19).toBitVec

end IpSlice

def decrementTtl (ip : IpSlice) : IpSlice := if ip.ttl > 0 then ip.setTtl (ip.ttl - 1) else ip

structure SocketAddr where
  ip : Ipv4Addr
  port : Nat
  deriving DecidableEq, Repr

structure Datagram where
  addr : SocketAddr
  payload : Bytes
  deriving DecidableEq, Repr

/- What is handed to the socket, if anything. -/
def sendUdpPacket (buf : Bytes) (routes : List RouteEntry) : Res (Option Datagram) := do
  let ipPkt ← IpSlice.new buf
  -- handle ipv4 only
  if ipPkt.version ≠ 4 then return none
  let dstAddr := ipPkt.destination
  match ← findRoute routes dstAddr with
  | none => return none
  | some route => return some ⟨⟨route.nextHop, 8285⟩, (decrementTtl ipPkt).slice⟩

variable {buf : Bytes} {routes : List RouteEntry} {ip : IpSlice}

theorem newLong (long : serializedSize ≤ buf.length) : IpSlice.new buf = .ok ⟨buf, long⟩ :=
  dif_neg (Nat.not_lt.mpr long)

theorem newShort (short : buf.length < serializedSize) :
    IpSlice.new buf = .error (.bail s!"ip slice length should be at least {serializedSize} bytes") := dif_pos short

theorem byteAt (i : Fin serializedSize) : ip.slice[i.val]? = some (ip.byte i) :=
  List.getElem?_eq_getElem (Nat.lt_of_lt_of_le i.isLt ip.long)

theorem decrementLength : (decrementTtl ip).slice.length = ip.slice.length := by
  unfold decrementTtl IpSlice.setTtl
  split <;> simp

/- A packet is dropped, or sent to the next hop of the route of its destination. -/
theorem sentPacket (long : serializedSize ≤ buf.length) : sendUdpPacket buf routes = .ok
    (if (IpSlice.mk buf long).version ≠ 4 then none
    else (routes.find? (fun it => routedBy (IpSlice.mk buf long).destination it.dst)).map
      (fun route => ⟨⟨route.nextHop, 8285⟩, (decrementTtl ⟨buf, long⟩).slice⟩)) := by
  simp only [sendUdpPacket, newLong long, bind, Except.bind, findRouteFind]
  split
  · rfl
  · cases routes.find? (fun it => routedBy (IpSlice.mk buf long).destination it.dst) <;> rfl

/- Whatever comes from the TUN device, sending it does not panic. -/
theorem sendNoPanic : ∃ sent, ignoreError (sendUdpPacket buf routes) = .ok sent := by
  rcases Nat.lt_or_ge buf.length serializedSize with short | long
  · refine ⟨none, ?_⟩
    simp [sendUdpPacket, newShort short, bind, Except.bind, ignoreError]
  · exact ⟨_, by rw [sentPacket long, ignoreError]⟩

end FlannelNg
