import FlannelNg.Lib.ReadText
import FlannelNg.SubnetKey

/-! Lease attributes as the JSON value of an entry. Members that are not set are left out,
and a member may be set to `null`, which is read as not set. -/
namespace FlannelNg
open Cidr Outcome

/-- The text of IPv6 networks, printed and read by their crate. -/
structure Ipv6Text where
  toText : Ipv6Network → String
  fromStr : String → Option Ipv6Network
  readsBack : ∀ n, fromStr (toText n) = some n

namespace Json

/- A member that is written only when it is set. -/
def setMember (name : String) (value : Option Json) : List (String × Json) := (value.map (fun v => (name, v))).toList

/- The value of a name, if it occurs; a second occurrence is an error. -/
def only (name : String) : List (String × Json) → Except String (Option Json)
  | [] => .ok none
  | [(_, value)] => .ok (some value)
  | _ => .error s!"duplicate field {name}"

def member (name : String) (members : List (String × Json)) : Except String (Option Json) :=
  only name (members.filter (fun m => m.1 = name))

/- An `Option` field: missing or `null` is none. -/
def optional {α : Type} (read : Json → Except String α) : Option Json → Except String (Option α)
  | none => .ok none
  | some .null => .ok none
  | some value => (read value).map some

def readStr : Json → Except String String
  | .str s => .ok s
  | _ => .error "invalid type, expected a string"

def required (name : String) : Option Json → Except String Json
  | none => .error s!"missing field {name}"
  | some value => .ok value

end Json

namespace LeaseAttrs

def readIpv4 (value : Json) : Except String Ipv4Addr := do
  let text ← value.readStr
  match ipv4AddrFromStr text.toList with
  | some ip => return ip
  | none => .error "invalid IPv4 address syntax"

def readIpv6 (ipv6 : Ipv6Text) (value : Json) : Except String Ipv6Network := do
  let text ← value.readStr
  match ipv6.fromStr text with
  | some network => return network
  | none => .error "invalid address"

def toJson (ipv6 : Ipv6Text) (attrs : LeaseAttrs) : Json :=
  .obj (Json.setMember "PublicIP" (some (.str (String.ofList (dotted attrs.publicIp)))) ++
    Json.setMember "PublicIPv6" (attrs.publicIpv6.map (fun n => .str (ipv6.toText n))) ++
    Json.setMember "BackendType" (attrs.backendType.map Json.str) ++
    Json.setMember "BackendData" attrs.backendData)

/- The attributes of the four values, however they were found. -/
def ofValues (ipv6 : Ipv6Text) (publicIp publicIpv6 backendType backendData : Option Json) : Except String LeaseAttrs := do
  let publicIp ← readIpv4 (← Json.required "PublicIP" publicIp)
  let publicIpv6 ← Json.optional (readIpv6 ipv6) publicIpv6
  let backendType ← Json.optional Json.readStr backendType
  let backendData ← Json.optional .ok backendData
  return { publicIp, publicIpv6, backendType, backendData }

/- An object, or the array of all four values. -/
def fromJson (ipv6 : Ipv6Text) : Json → Except String LeaseAttrs
  | .obj members => do
    ofValues ipv6 (← Json.member "PublicIP" members) (← Json.member "PublicIPv6" members)
      (← Json.member "BackendType" members) (← Json.member "BackendData" members)
  | .arr [publicIp, publicIpv6, backendType, backendData] =>
    ofValues ipv6 (some publicIp) (some publicIpv6) (some backendType) (some backendData)
  | _ => .error "invalid type, expected struct LeaseAttrs"

end LeaseAttrs

/-- The bytes that etcd keeps of JSON values, as their crate writes and reads them. -/
structure JsonText (V : Type) where
  toVec : Json → V
  fromSlice : V → Except String Json

/- The value is read as it was written. A number that is not an integer may lose digits, and a
value that is nested too deeply is refused. -/
def JsonText.ReadsBack {V : Type} (text : JsonText V) (v : Json) : Prop := text.fromSlice (text.toVec v) = .ok v

namespace LeaseAttrs
variable {V : Type} (text : JsonText V) (ipv6 : Ipv6Text)

def toVec (attrs : LeaseAttrs) : V := text.toVec (attrs.toJson ipv6)

def fromSlice (bytes : V) : Except String LeaseAttrs := do
  let value ← text.fromSlice bytes
  fromJson ipv6 value

/-- What is written as `null` cannot be told from what is not set. -/
structure Storable (attrs : LeaseAttrs) : Prop where
  set : attrs.backendData ≠ some .null
  readsBack : text.ReadsBack (attrs.toJson ipv6)

end LeaseAttrs

/- The values of the entries. -/
def attrsValues {V : Type} (text : JsonText V) (ipv6 : Ipv6Text) : ValueCodec V :=
  ⟨LeaseAttrs.toVec text ipv6, LeaseAttrs.fromSlice text ipv6⟩

section RoundTrip
variable {ipv6 : Ipv6Text} {attrs : LeaseAttrs} {name other : String} {value : Option Json} {v : Json}

theorem filterSet : (Json.setMember name value).filter (fun m => decide (m.1 = other)) =
    if name = other then Json.setMember name value else [] := by
  cases value with
  | none => simp [Json.setMember]
  | some v => by_cases same : name = other <;> simp [Json.setMember, same]

theorem onlySet : Json.only other (Json.setMember name value) = .ok value := by
  cases value <;> rfl

theorem readIpv4Iff {ip : Ipv4Addr} : LeaseAttrs.readIpv4 v = .ok ip ↔ v = .str (String.ofList (dotted ip)) := by
  constructor
  · intro read
    simp only [LeaseAttrs.readIpv4, bind, Except.bind] at read
    split at read
    · cases read
    · rename_i text isStr
      split at read
      · rename_i ip' found
        cases read
        unfold Json.readStr at isStr
        split at isStr
        · cases isStr
          rw [← ipv4AddrFromIff.mp found, String.ofList_toList]
        · cases isStr
      · cases read
  · rintro rfl
    have read : ipv4AddrFromStr (String.ofList (dotted ip)).toList = some ip := by
      rw [String.toList_ofList]
      exact ipv4AddrFromIff.mpr rfl
    simp only [LeaseAttrs.readIpv4, Json.readStr, bind, Except.bind, read]
    rfl

theorem readIpv6Text (n : Ipv6Network) : LeaseAttrs.readIpv6 ipv6 (.str (ipv6.toText n)) = .ok n := by
  simp only [LeaseAttrs.readIpv6, Json.readStr, bind, Except.bind, ipv6.readsBack]
  rfl

/- What an optional field reads is what was written, unless that was `null`. -/
theorem optionalSet {α : Type} {read : Json → Except String α} {write : α → Json} {value : Option α}
    (readsBack : ∀ x, read (write x) = .ok x) (set : ∀ x, value = some x → write x ≠ .null) :
    Json.optional read (value.map write) = .ok value := by
  cases value with
  | none => rfl
  | some x =>
    have other := set x rfl
    have read_ := readsBack x
    rw [Option.map_some]
    generalize write x = v at other read_
    cases v with
    | null => contradiction
    | bool _ | num _ | float _ | str _ | arr _ | obj _ => simp only [Json.optional, read_, Except.map]

theorem optionalNotNull {read : Option Json} (ok : Json.optional .ok value = .ok read) : read ≠ some .null := by
  intro isNull
  subst isNull
  unfold Json.optional at ok
  split at ok
  · cases ok
  · cases ok
  · rename_i set
    cases ok
    exact set rfl

theorem writtenRead (ipv6 : Ipv6Text) (attrs : LeaseAttrs) :
    LeaseAttrs.fromJson ipv6 (attrs.toJson ipv6) = (Json.optional .ok attrs.backendData).map (fun backendData =>
      { attrs with backendData }) := by
  have network := @optionalSet _ _ _ attrs.publicIpv6 (@readIpv6Text ipv6) nofun
  have type_ := @optionalSet _ Json.readStr Json.str attrs.backendType (fun _ => rfl) nofun
  have ip := readIpv4Iff.mpr (rfl : Json.str (String.ofList (dotted attrs.publicIp)) = _)
  simp only [LeaseAttrs.toJson, LeaseAttrs.fromJson, Json.member, List.filter_append, filterSet, String.reduceEq, if_true, if_false,
    List.nil_append, List.append_nil, onlySet, bind, Except.bind, LeaseAttrs.ofValues, Json.required, ip, network, type_]
  cases Json.optional Except.ok attrs.backendData <;> rfl

theorem valuesSet {publicIp publicIpv6 backendType backendData : Option Json}
    (ok : LeaseAttrs.ofValues ipv6 publicIp publicIpv6 backendType backendData = .ok attrs) : attrs.backendData ≠ some .null := by
  simp only [LeaseAttrs.ofValues, bindOk] at ok
  obtain ⟨_, _, _, _, _, _, _, _, data, read, last⟩ := ok
  cases last
  exact optionalNotNull read

theorem readSet (read : LeaseAttrs.fromJson ipv6 v = .ok attrs) : attrs.backendData ≠ some .null := by
  unfold LeaseAttrs.fromJson at read
  split at read
  · simp only [bindOk] at read
    obtain ⟨_, _, _, _, _, _, _, _, ok⟩ := read
    exact valuesSet ok
  · exact valuesSet read
  · cases read

theorem writtenReadIff : LeaseAttrs.fromJson ipv6 (attrs.toJson ipv6) = .ok attrs ↔ attrs.backendData ≠ some .null := by
  refine ⟨readSet, fun isSet => ?_⟩
  have data := @optionalSet _ .ok id attrs.backendData (fun _ => rfl) (by rintro x set rfl; exact isSet set)
  rw [Option.map_id, id_eq] at data
  rw [writtenRead, data]
  rfl

variable {V : Type} {text : JsonText V} {bytes : V}

theorem sliceOk : LeaseAttrs.fromSlice text ipv6 bytes = .ok attrs ↔
    ∃ v, text.fromSlice bytes = .ok v ∧ LeaseAttrs.fromJson ipv6 v = .ok attrs := by
  unfold LeaseAttrs.fromSlice
  cases text.fromSlice bytes <;> simp [bind, Except.bind]

theorem storedReadIff (readsBack : text.ReadsBack (attrs.toJson ipv6)) :
    LeaseAttrs.fromSlice text ipv6 (attrs.toVec text ipv6) = .ok attrs ↔ attrs.backendData ≠ some .null := by
  rw [sliceOk, LeaseAttrs.toVec, readsBack]
  constructor
  · rintro ⟨v, same, read⟩
    exact readSet read
  · exact fun isSet => ⟨_, rfl, writtenReadIff.mpr isSet⟩

/- Attributes are read back exactly when their data is not `null`, and whatever is read, by a
peer or after an own restart, is read the same when it is written again. -/
theorem attrsReadBack (text : JsonText V) (ipv6 : Ipv6Text) :
    (∀ attrs : LeaseAttrs, text.ReadsBack (attrs.toJson ipv6) →
      (LeaseAttrs.fromSlice text ipv6 (attrs.toVec text ipv6) = .ok attrs ↔ attrs.backendData ≠ some .null)) ∧
    ∀ bytes attrs, LeaseAttrs.fromSlice text ipv6 bytes = .ok attrs → text.ReadsBack (attrs.toJson ipv6) →
      LeaseAttrs.fromSlice text ipv6 (attrs.toVec text ipv6) = .ok attrs := by
  refine ⟨fun _ => storedReadIff, fun bytes attrs read readsBack => (storedReadIff readsBack).mpr ?_⟩
  obtain ⟨v, _, read⟩ := sliceOk.mp read
  exact readSet read

end RoundTrip

/- The address as one number. -/
def Ipv6Text.plain : Ipv6Text where
  toText := fun n => String.ofList (decimal n.ip.toNat ++ '/' :: decimal n.prefixLen)
  fromStr := fun text => (TextCrates.cidrParts text.toList).bind fun (addr, len) => len.bind fun len =>
    if valid : value len ≤ 128 then some ⟨BitVec.ofNat 128 (value addr), value len, valid⟩ else none
  readsBack := by
    intro n
    have slash : ∀ m, '/' ∉ decimal m := notInDecimal rfl
    simp only [String.toList_ofList, TextCrates.partsOf (slash _), if_neg (slash _), Option.bind_some, valueDecimal,
      dif_pos n.valid, BitVec.ofNat_toNat, BitVec.setWidth_eq]

private def vxlanAttrsOf (data : Json) : LeaseAttrs where
  publicIp := 0xC0A80002
  backendType := some "vxlan"
  backendData := some data

private def vtepData : Json := .obj [("VNI", .num 1), ("VtepMAC", .str "02:42:AC:11:00:02")]

private def nullText : String := "\x7b\"PublicIP\":\"192.168.0.2\",\"BackendType\":\"vxlan\",\"BackendData\":null\x7d"

private def vtepText : String := "\x7b\"PublicIP\":\"192.168.0.2\",\"BackendType\":\"vxlan\"," ++
  "\"BackendData\":\x7b\"VNI\":1,\"VtepMAC\":\"02:42:AC:11:00:02\"\x7d\x7d"

/- What serde_json makes of two values and of their texts. -/
private def twoTexts : JsonText String where
  toVec := fun v => if v = (vxlanAttrsOf .null).toJson .plain then nullText else vtepText
  fromSlice := fun bytes =>
    if bytes = nullText then .ok ((vxlanAttrsOf .null).toJson .plain)
    else if bytes = vtepText then .ok ((vxlanAttrsOf vtepData).toJson .plain)
    else .error "expected value"

private theorem twoReadBack : twoTexts.ReadsBack ((vxlanAttrsOf vtepData).toJson .plain) ∧
    twoTexts.ReadsBack ((vxlanAttrsOf .null).toJson .plain) := by
  constructor
  · have other : (vxlanAttrsOf vtepData).toJson .plain ≠ (vxlanAttrsOf .null).toJson .plain := by decide
    have apart : vtepText ≠ nullText := by decide
    simp only [JsonText.ReadsBack, twoTexts, if_neg other, if_neg apart, if_true]
  · simp only [JsonText.ReadsBack, twoTexts, if_true]

theorem vtepAttrsReadBack :
    LeaseAttrs.fromSlice twoTexts .plain ((vxlanAttrsOf vtepData).toVec twoTexts .plain) = .ok (vxlanAttrsOf vtepData) ∧
      LeaseAttrs.fromSlice twoTexts .plain ((vxlanAttrsOf .null).toVec twoTexts .plain) ≠ .ok (vxlanAttrsOf .null) := by
  obtain ⟨vtep, null⟩ := twoReadBack
  obtain ⟨iff, again⟩ := attrsReadBack twoTexts .plain
  have read := (iff (vxlanAttrsOf vtepData) vtep).mpr (by decide)
  exact ⟨again _ _ read vtep, fun same => (iff (vxlanAttrsOf .null) null).mp same rfl⟩

end FlannelNg
