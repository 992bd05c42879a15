import FlannelNg.Config
import FlannelNg.Netlink
import FlannelNg.SubnetKey
import FlannelNg.Lib.EnvText

/-! The subnet file. Its writer fills a temporary file beside it and renames that over it;
the next start reads it back. A writer that fails leaves the file alone. -/
namespace FlannelNg
open Cidr Outcome EnvText

def decode (bytes : ByteArray) : Option Text := bytes.utf8Decode?.map Array.toList

def encode (text : Text) : ByteArray := (String.ofList text).toByteArray

inductive Component where
  | rootDir
  | curDir
  | parentDir
  | normal (name : ByteArray)

instance : DecidableEq Component
  | .rootDir, .rootDir | .curDir, .curDir | .parentDir, .parentDir => .isTrue rfl
  | .normal a, .normal b => @decidable_of_iff _ (a = b) (by simp) (ByteArray.instDecidableEq a b)
  | .rootDir, .curDir | .rootDir, .parentDir | .rootDir, .normal _ | .curDir, .rootDir | .curDir, .parentDir
  | .curDir, .normal _ | .parentDir, .rootDir | .parentDir, .curDir | .parentDir, .normal _ | .normal _, .rootDir
  | .normal _, .curDir | .normal _, .parentDir => .isFalse nofun

abbrev Path := List Component

/- `Path::file_name` -/
def fileName (path : Path) : Option ByteArray :=
  match path.getLast? with
  | some (.normal name) => some name
  | _ => none

/- `Path::parent` -/
def parent (path : Path) : Option Path :=
  match path.getLast? with
  | none => none
  | some .rootDir => none
  | some _ => some path.dropLast

inductive Node where
  | file (content : ByteArray)
  | unreadable (message : String)

abbrev Disk := Path → Option Node

namespace Disk

def create (disk : Disk) (path : Path) : Disk := Function.update disk path (some (.file .empty))

def append (disk : Disk) (path : Path) (bytes : ByteArray) : Disk :=
  match disk path with
  | some (.file content) => Function.update disk path (some (.file (content ++ bytes)))
  | _ => disk

def rename (disk : Disk) (source target : Path) : Disk :=
  Function.update (Function.update disk target (disk source)) source none

end Disk

/-- Which steps of the writer fail, with the error; a line may be written in part. -/
structure FileCalls where
  createDir : Option String := none
  createFile : Option String := none
  write : Nat → Option (Nat × String) := fun _ => none
  rename : Option String := none

def networkText (network : Ipv4Network) : Text := dotted network.ip ++ '/' :: decimal network.prefixLen

def boolText (b : Bool) : Text := if b then "true".toList else "false".toList

/- The lines, each computed when it is written. -/
def envEntries (build : Build) (config : Config) (ipMasq : Bool) (sn : Ipv4Network) (mtu : Nat) : List (Res (Text × Text)) :=
  if config.enableIpv4 then [
    (unwrap config.network).map (fun network => ("FLANNEL_NETWORK".toList, networkText network)),
    (Ipv4.add build sn.ip 1).map (fun nextIp => ("FLANNEL_SUBNET".toList, dotted nextIp ++ '/' :: decimal sn.prefixLen)),
    .ok ("FLANNEL_MTU".toList, decimal mtu),
    .ok ("FLANNEL_IPMASQ".toList, boolText ipMasq)]
  else []

def writeEntries (write : Nat → Option (Nat × String)) (tmp : Path) : Nat → List (Res (Text × Text)) → Disk → Res Unit × Disk
  | _, [], disk => (.ok (), disk)
  | _, .error stop :: _, disk => (.error stop, disk)
  | i, .ok entry :: later, disk =>
    let bytes := encode (line entry ++ ['\n'])
    match write i with
    | some (n, message) => (.error (.bail message), disk.append tmp (bytes.extract 0 n))
    | none => writeEntries write tmp (i + 1) later (disk.append tmp bytes)

/- The directory, and the file in it whose name has a dot in front. -/
def tmpFilePath (path : Path) : Res Path := do
  let name ← okOr "file name should exists" ((fileName path).bind decode)
  let dir ← okOr "parent should not be none" (parent path)
  return dir ++ [.normal (encode ('.' :: name))]

def writeSubnetFile (build : Build) (calls : FileCalls) (path : Path) (config : Config) (ipMasq : Bool) (sn : Ipv4Network)
    (mtu : Nat) (disk : Disk) : Res Unit × Disk :=
  match tmpFilePath path, calls.createDir, calls.createFile with
  | .error stop, _, _ => (.error stop, disk)
  | .ok _, some message, _ => (.error (.bail message), disk)
  | .ok _, none, some message => (.error (.bail message), disk)
  | .ok tmp, none, none =>
    match writeEntries calls.write tmp 0 (envEntries build config ipMasq sn mtu) (disk.create tmp) with
    | (.error stop, disk) => (.error stop, disk)
    | (.ok (), disk) =>
      match calls.rename with
      | some message => (.error (.bail message), disk)
      | none => (.ok (), disk.rename tmp path)

def readFromSubnetEnv (disk : Disk) (path : Path) : Res Env :=
  match disk path with
  | none => .ok (fun _ => none)
  | some (.unreadable message) => .error (.bail message)
  | some (.file content) => do
    let s ← okOr "stream did not contain valid UTF-8" (decode content)
    if content.size = 0 then return fun _ => none
    return collect (entries s)

/- The entry `FLANNEL_SUBNET` as the program parses it at its start. -/
def prevSubnet (crates : TextCrates) (env : Env) : Res (Option Ipv4Network) :=
  match env "FLANNEL_SUBNET".toList with
  | none => .ok none
  | some text => (okOr "invalid network" (crates.ipv4Network text)).map some

variable {build : Build} {calls : FileCalls} {path tmp : Path} {config : Config} {ipMasq : Bool} {sn network : Ipv4Network}
variable {mtu i : Nat} {disk after : Disk} {write : Nat → Option (Nat × String)} {stop : Stop}
variable {texts : List (Res (Text × Text))} {content : ByteArray}

theorem decodeEncode {text : Text} : decode (encode text) = some text := by
  rw [decode, encode, String.toByteArray_ofList, List.utf8Decode?_utf8Encode]
  rfl

theorem encodeAppend {text more : Text} : encode (text ++ more) = encode text ++ encode more := by
  simp only [encode, String.toByteArray_ofList, List.utf8Encode_append]

theorem encodeSize {text : Text} : (encode text).size = 0 ↔ text = [] := by
  rw [ByteArray.size_eq_zero_iff, encode, String.toByteArray_ofList, List.utf8Encode_eq_empty]

/- The temporary name is longer than the name. -/
theorem tmpApart (made : tmpFilePath path = .ok tmp) : path ≠ tmp := by
  rintro rfl
  simp only [tmpFilePath, bindOk] at made
  obtain ⟨name, named, dir, _, last⟩ := made
  have same : dir ++ [.normal (encode ('.' :: name))] = path := Except.ok.inj last
  have hidden : fileName path = some (encode ('.' :: name)) := by
    rw [← same, fileName, List.getLast?_concat]
  rw [hidden, Option.bind_some, decodeEncode] at named
  have longer : '.' :: name = name := Except.ok.inj named
  exact List.cons_ne_self _ _ longer

theorem appendOther (other : path ≠ tmp) {bytes : ByteArray} : disk.append tmp bytes path = disk path := by
  unfold Disk.append
  cases disk tmp with
  | none => rfl
  | some node =>
    cases node with
    | file content => exact Function.update_of_ne other ..
    | unreadable message => rfl

theorem writeEntriesOther (other : path ≠ tmp) : (writeEntries write tmp i texts disk).2 path = disk path := by
  induction texts generalizing i disk with
  | nil => rfl
  | cons text later ih =>
    cases text with
    | error stop => rfl
    | ok entry =>
      unfold writeEntries
      split
      · exact appendOther other
      · exact ih.trans (appendOther other)

/-- Every step of the writer went well, and the lines are in the temporary file. -/
structure Wrote (build : Build) (calls : FileCalls) (path : Path) (config : Config) (ipMasq : Bool) (sn : Ipv4Network)
    (mtu : Nat) (disk : Disk) (tmp : Path) (filled : Disk) : Prop where
  made : tmpFilePath path = .ok tmp
  createDir : calls.createDir = none
  createFile : calls.createFile = none
  written : writeEntries calls.write tmp 0 (envEntries build config ipMasq sn mtu) (disk.create tmp) = (.ok (), filled)
  rename : calls.rename = none

/- The writer does all its steps, or fails with the file as it was. -/
theorem writerEnds : (∃ tmp filled, Wrote build calls path config ipMasq sn mtu disk tmp filled ∧
      writeSubnetFile build calls path config ipMasq sn mtu disk = (.ok (), filled.rename tmp path)) ∨
    ∃ stop after, writeSubnetFile build calls path config ipMasq sn mtu disk = (.error stop, after) ∧
      after path = disk path := by
  unfold writeSubnetFile
  cases made : tmpFilePath path with
  | error stop => exact .inr ⟨stop, disk, rfl, rfl⟩
  | ok tmp =>
    cases createDir : calls.createDir with
    | some message => exact .inr ⟨.bail message, disk, rfl, rfl⟩
    | none =>
      cases createFile : calls.createFile with
      | some message => exact .inr ⟨.bail message, disk, rfl, rfl⟩
      | none =>
        have apart := tmpApart made
        have untouched : (writeEntries calls.write tmp 0 (envEntries build config ipMasq sn mtu) (disk.create tmp)).2 path =
            disk path := (writeEntriesOther apart).trans (Function.update_of_ne apart ..)
        dsimp only
        cases written : writeEntries calls.write tmp 0 (envEntries build config ipMasq sn mtu) (disk.create tmp) with
        | mk ended filled =>
          rw [written] at untouched
          cases ended with
          | error stop => exact .inr ⟨stop, filled, rfl, untouched⟩
          | ok =>
            cases rename : calls.rename with
            | some message => exact .inr ⟨.bail message, filled, rfl, untouched⟩
            | none => exact .inl ⟨tmp, filled, ⟨made, createDir, createFile, written, rename⟩, rfl⟩

theorem appendFile (file : disk tmp = some (.file content)) {bytes : ByteArray} :
    disk.append tmp bytes tmp = some (.file (content ++ bytes)) := by
  rw [Disk.append, file]
  exact Function.update_self ..

/- Lines that are all written stand in the file one after the other. -/
theorem writtenAll (file : disk tmp = some (.file content)) (done : writeEntries write tmp i texts disk = (.ok (), after)) :
    (∀ j < texts.length, write (i + j) = none) ∧
      ∃ all, texts = all.map .ok ∧ after tmp = some (.file (content ++ encode (render all))) := by
  induction texts generalizing i disk content with
  | nil =>
    obtain rfl : disk = after := (Prod.mk.inj done).2
    refine ⟨by simp, [], rfl, ?_⟩
    rw [file, show encode (render []) = .empty from rfl, ByteArray.append_empty]
  | cons text later ih =>
    cases text with
    | error stop => simp [writeEntries] at done
    | ok entry =>
      unfold writeEntries at done
      cases wrote : write i with
      | some failure => simp [wrote] at done
      | none =>
        rw [wrote] at done
        obtain ⟨none_, all, same, whole⟩ := ih (appendFile file) done
        refine ⟨fun j below => ?_, entry :: all, by rw [same, List.map_cons], ?_⟩
        · cases j with
          | zero => exact wrote
          | succ j => exact Nat.add_right_comm i 1 j ▸ none_ j (Nat.lt_of_succ_lt_succ below)
        · rw [whole, ByteArray.append_assoc, ← encodeAppend]
          rfl

theorem plainDecimal {n : Nat} : ∀ c ∈ decimal n, isWhitespace c = false := by
  intro c mem
  obtain ⟨d, small, rfl⟩ := digitOf (decimalDigits c mem)
  have all : ∀ d < 10, isWhitespace (Nat.digitChar d) = false := by decide
  exact all d small

theorem plainNetworkText : ∀ c ∈ networkText network, isWhitespace c = false := by
  have dot : isWhitespace '.' = false := by decide
  have slash : isWhitespace '/' = false := by decide
  simp only [networkText, dotted, List.forall_mem_append, List.forall_mem_cons]
  exact ⟨⟨plainDecimal, dot, plainDecimal, dot, plainDecimal, dot, plainDecimal⟩, slash, plainDecimal⟩

theorem plainBoolText {b : Bool} : ∀ c ∈ boolText b, isWhitespace c = false := by
  cases b with
  | true => exact plainOf (by decide)
  | false => exact plainOf (by decide)

theorem cleanEntry {key value : Text} (noSign : '=' ∉ key) (plainKey : key.any isWhitespace = false)
    (plain : ∀ c ∈ value, isWhitespace c = false) : Clean (key, value) where
  key := noSign
  line := by
    rw [line, List.forall_mem_append, List.forall_mem_cons]
    exact ⟨plainOf plainKey, by decide, plain⟩

theorem readNetworkText (crates : TextCrates) : crates.ipv4Network (networkText network) = some network :=
  (TextCrates.cidrTextSome ⟨decimalNonempty, fun c mem => TextCrates.asciiDigit (decimalDigits c mem)⟩).mpr
    ⟨rfl, decimalDigits, valueDecimal⟩

/- The address behind a subnet's first one is in the subnet. -/
theorem nextAddress (canonical : sn.Canonical) (short : sn.prefixLen ≤ 30) : Ipv4.add build sn.ip 1 = .ok (sn.ip + 1) ∧
    (Ipv4Network.mk (sn.ip + 1) sn.prefixLen sn.valid).network = sn.network := by
  have four : 2 ^ 2 ≤ sn.size := Nat.pow_le_pow_right (by omega) (by omega)
  obtain ⟨q, whole⟩ := (canonicalIff sn).mp canonical
  obtain ⟨r, all⟩ := sizeDvd sn
  have bound := sn.ip.isLt
  have below : sn.ip.toNat + sn.size ≤ 2 ^ 32 := by
    rw [whole, all] at bound
    rw [whole, all, ← Nat.mul_succ]
    exact Nat.mul_le_mul_left _ (Nat.lt_of_mul_lt_mul_left bound)
  have one : (1 : BitVec 32).toNat = 1 := rfl
  have next : (sn.ip + 1).toNat = sn.ip.toNat + 1 := by
    rw [BitVec.toNat_add, one]
    omega
  refine ⟨if_pos (by omega), ?_⟩
  have inside : sn.contains (sn.ip + 1) = true := (containsRange canonical _).mpr (by omega)
  rw [containsIff] at inside
  apply BitVec.eq_of_toNat_eq
  simp only [Ipv4Network.network, Ipv4Network.mask, maskedNat, inside]

def FileCalls.Fails (calls : FileCalls) : Prop :=
  calls.createDir ≠ none ∨ calls.createFile ≠ none ∨ (∃ i < 4, calls.write i ≠ none) ∨ calls.rename ≠ none

/-- Four entries, and what the program makes of them at its next start. -/
structure Restores (crates : TextCrates) (network sn : Ipv4Network) (mtu : Nat) (ipMasq : Bool) (env : Env) : Prop where
  keys : ∀ key, env key ≠ none ↔ key ∈ ["FLANNEL_NETWORK".toList, "FLANNEL_SUBNET".toList, "FLANNEL_MTU".toList,
    "FLANNEL_IPMASQ".toList]
  network : (env "FLANNEL_NETWORK".toList).bind crates.ipv4Network = some network
  subnet : ∃ prev, prevSubnet crates env = .ok (some prev) ∧ prev.network = sn.network ∧ prev.prefixLen = sn.prefixLen
  mtu : env "FLANNEL_MTU".toList = some (decimal mtu)
  ipMasq : env "FLANNEL_IPMASQ".toList = some (boolText ipMasq)

/- The network of the second entry has the address behind the subnet's first one. -/
def fourEntries (network next : Ipv4Network) (mtu : Nat) (ipMasq : Bool) : List (Text × Text) := [
  ("FLANNEL_NETWORK".toList, networkText network),
  ("FLANNEL_SUBNET".toList, networkText next),
  ("FLANNEL_MTU".toList, decimal mtu),
  ("FLANNEL_IPMASQ".toList, boolText ipMasq)]

theorem fourClean {next : Ipv4Network} : ∀ entry ∈ fourEntries network next mtu ipMasq, Clean entry := by
  simp only [fourEntries, List.forall_mem_cons]
  exact ⟨cleanEntry (by decide) (by decide) plainNetworkText, cleanEntry (by decide) (by decide) plainNetworkText,
    cleanEntry (by decide) (by decide) plainDecimal, cleanEntry (by decide) (by decide) plainBoolText, by simp⟩

theorem fourRestore (crates : TextCrates) {next : Ipv4Network} (net : next.network = sn.network)
    (length : next.prefixLen = sn.prefixLen) :
    Restores crates network sn mtu ipMasq (collect (fourEntries network next mtu ipMasq)) := by
  have distinct : ((fourEntries network next mtu ipMasq).map Prod.fst).Nodup := by
    change ["FLANNEL_NETWORK".toList, "FLANNEL_SUBNET".toList, "FLANNEL_MTU".toList, "FLANNEL_IPMASQ".toList].Nodup
    decide
  rw [collectLookup distinct]
  refine ⟨fun key => lookupKeys, readNetworkText crates, ⟨next, ?_, net, length⟩, rfl, rfl⟩
  change (okOr "invalid network" (crates.ipv4Network (networkText next))).map some = _
  rw [readNetworkText crates]
  rfl

theorem writtenFour (net : config.network = some network) (ipv4 : config.enableIpv4 = true) (canonical : sn.Canonical)
    (short : sn.prefixLen ≤ 30) : envEntries build config ipMasq sn mtu =
      (fourEntries network ⟨sn.ip + 1, sn.prefixLen, sn.valid⟩ mtu ipMasq).map .ok := by
  rw [envEntries, if_pos ipv4, net, (nextAddress canonical short).1]
  rfl

/- What a reader finds after the rename. -/
theorem renamedReads {filled : Disk} {all : List (Text × Text)} (clean : ∀ entry ∈ all, Clean entry)
    (file : filled tmp = some (.file (encode (render all)))) (apart : path ≠ tmp) :
    readFromSubnetEnv (filled.rename tmp path) path = .ok (collect all) := by
  have found : filled.rename tmp path path = some (.file (encode (render all))) := by
    rw [Disk.rename, Function.update_of_ne apart, Function.update_self, file]
  simp only [readFromSubnetEnv, found, decodeEncode, okOr, bind, Except.bind, entriesRender clean]
  split
  · rename_i empty
    have none_ : render all = [] := encodeSize.mp empty
    cases all with
    | nil => rfl
    | cons entry rest => simp [render] at none_
  · rfl

theorem subnetFileRoundTrip (crates : TextCrates) (build : Build) (calls : FileCalls) (path : Path) (config : Config)
    (ipMasq : Bool) (sn network : Ipv4Network) (mtu : Nat) (disk : Disk) (net : config.network = some network)
    (ipv4 : config.enableIpv4 = true) (canonical : sn.Canonical) (short : sn.prefixLen ≤ 30) :
    let x := writeSubnetFile build calls path config ipMasq sn mtu disk
    (x.1 = .ok () → ∃ env, readFromSubnetEnv x.2 path = .ok env ∧ Restores crates network sn mtu ipMasq env) ∧
      (calls.Fails ∨ x.1 ≠ .ok () → readFromSubnetEnv x.2 path = readFromSubnetEnv disk path) := by
  dsimp only
  rcases @writerEnds build calls path config ipMasq sn mtu disk with
    ⟨tmp, filled, wrote, done⟩ | ⟨stop, after, failed, same⟩
  · rw [done]
    have apart := tmpApart wrote.made
    have start : disk.create tmp tmp = some (.file .empty) := Function.update_self ..
    have four := @writtenFour build config ipMasq sn network mtu net ipv4 canonical short
    obtain ⟨none_, all, same, file⟩ := writtenAll start wrote.written
    rw [four] at same none_
    rw [← List.map_injective_iff.mpr (fun _ _ => Except.ok.inj) same, ByteArray.empty_append] at file
    have next := (@nextAddress build sn canonical short).2
    refine ⟨fun _ => ⟨_, renamedReads fourClean file apart, fourRestore crates next rfl⟩, ?_⟩
    rintro (⟨fails | fails | ⟨i, below, fails⟩ | fails⟩ | notDone)
    · exact absurd wrote.createDir fails
    · exact absurd wrote.createFile fails
    · exact absurd (Nat.zero_add i ▸ none_ i below) fails
    · exact absurd wrote.rename fails
    · exact absurd rfl notDone
  · rw [failed]
    refine ⟨fun ok => by contradiction, fun _ => ?_⟩
    simp only [readFromSubnetEnv, same]

private def subnetEnvName : Text := ['s', 'u', 'b', 'n', 'e', 't', '.', 'e', 'n', 'v']

private def subnetEnvPath : Path := [.rootDir, .normal (encode ['r', 'u', 'n']), .normal (encode subnetEnvName)]

private theorem subnetEnvTmp : tmpFilePath subnetEnvPath =
    .ok [.rootDir, .normal (encode ['r', 'u', 'n']), .normal (encode ('.' :: subnetEnvName))] := by
  have named : (fileName subnetEnvPath).bind decode = some subnetEnvName := decodeEncode
  rw [tmpFilePath, named]
  rfl

private def noFiles : Disk := fun _ => none

/- With IPv4 off the file has no line. -/
theorem disabledFileEmpty :
    let x := writeSubnetFile .checked {} subnetEnvPath smallConfig false (cidr 0x0A000004 30) 1500 noFiles
    x.1 = .ok () ∧ smallConfig.network = some (cidr 0x0A000000 28) ∧
      ¬∃ env, readFromSubnetEnv x.2 subnetEnvPath = .ok env ∧
        Restores .plain (cidr 0x0A000000 28) (cidr 0x0A000004 30) 1500 false env := by
  have apart := tmpApart subnetEnvTmp
  have empty : (noFiles.create [.rootDir, .normal (encode ['r', 'u', 'n']), .normal (encode ('.' :: subnetEnvName))])
      [.rootDir, .normal (encode ['r', 'u', 'n']), .normal (encode ('.' :: subnetEnvName))] =
        some (.file (encode (render []))) := Function.update_self ..
  dsimp only
  rw [writeSubnetFile, subnetEnvTmp]
  refine ⟨rfl, rfl, ?_⟩
  rintro ⟨env, read, restores⟩
  cases Except.ok.inj ((renamedReads (by simp) empty apart).symm.trans read)
  exact absurd restores.mtu (by simp [collect])

theorem smallFileRead :
    let x := writeSubnetFile .checked {} subnetEnvPath smallAccepted false (cidr 0x0A000004 30) 1500 noFiles
    ∃ env, readFromSubnetEnv x.2 subnetEnvPath = .ok env ∧
      Restores .plain (cidr 0x0A000000 28) (cidr 0x0A000004 30) 1500 false env := by
  refine (subnetFileRoundTrip .plain .checked {} subnetEnvPath smallAccepted false (cidr 0x0A000004 30)
    (cidr 0x0A000000 28) 1500 noFiles rfl rfl (by decide) (by decide)).1 ?_
  rw [writeSubnetFile, subnetEnvTmp]
  rfl

end FlannelNg
