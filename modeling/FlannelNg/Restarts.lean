import FlannelNg.FailedWrite
import FlannelNg.Startup

/-! What a start touches, whatever fails in it, and what a later start finds: its link with
the MAC that the other nodes have learnt. -/
namespace FlannelNg
open Cidr Outcome Runs

section Written
variable {K V : Type} [DecidableEq K] {codec : Codec K V} {attrs : LeaseAttrs} {rpc : WriteRpc} {db after : Etcd K V}
variable {build : Build} {k : K} {id : Int}

theorem writtenElsewhere (fresh : FreshGrant rpc db) (choice : Choice) (other : k ≠ codec.key choice.subnet) :
    (registryWrite codec attrs rpc db choice).2.get k = db.get k := by
  cases choice with
  | reuse lease => exact updateElsewhere fresh (Ne.symm other)
  | create sn => exact createElsewhere fresh (.inr (Ne.symm other))

/-- The stores that others leave behind while one attempt goes on. -/
def leftByOthers (codec : Codec K V) (att : Attempt K V) (db : Etcd K V) : List (Etcd K V) :=
  let seen := att.before.foldl (interfere codec) db
  [db, seen, att.meanwhile.foldl (interfere codec) seen]

/- One entry aside, an acquisition of this address leaves a store that others left. -/
def EntryOf (codec : Codec K V) (build : Build) (fuel : Nat) (stored : Res Config) (attempts : Nat → Attempt K V)
    (ip : Ipv4Addr) (db : Etcd K V) (sn : Ipv4Network) : Prop :=
  ∀ attrs : LeaseAttrs, attrs.publicIp = ip →
    (∀ lease, (acquireLease codec build fuel stored attrs attempts db).1 = .ok lease → lease.subnet = sn) ∧
    ∃ left ∈ leftByOthers codec (attempts 0) db, ∀ k ≠ codec.key sn,
      (acquireLease codec build fuel stored attrs attempts db).2.get k = left.get k

theorem acquiredElsewhere {fuel : Nat} {stored : Res Config} {attempts : Nat → Attempt K V} {ip : Ipv4Addr}
    (fresh : ∀ left ∈ leftByOthers codec (attempts 0) db, FreshGrant (attempts 0).write left) :
    ∃ sn, EntryOf codec build fuel stored attempts ip db sn := by
  cases accepted : getNetworkConfig build stored with
  | error stop =>
    refine ⟨cidr 0 0, fun attrs _ => ?_⟩
    rw [acquireLease, accepted]
    exact ⟨by simp, db, List.mem_cons_self, fun _ _ => rfl⟩
  | ok config =>
    cases chosen : decideLease codec build fuel config ip (attempts 0).read (attempts 0).pick
        ((attempts 0).before.foldl (interfere codec) db) with
    | error stop =>
      refine ⟨cidr 0 0, fun attrs mine => ?_⟩
      rw [acquireIsFirst accepted, tryAcquireLease, mine, chosen]
      exact ⟨by simp, _, List.mem_cons_of_mem _ List.mem_cons_self, fun _ _ => rfl⟩
    | ok choice =>
      have last := List.mem_cons_of_mem db (List.mem_cons_of_mem ((attempts 0).before.foldl (interfere codec) db)
        (List.mem_singleton_self ((attempts 0).meanwhile.foldl (interfere codec) ((attempts 0).before.foldl (interfere codec) db))))
      refine ⟨choice.subnet, fun attrs mine => ?_⟩
      rw [acquireIsFirst accepted, tryAcquireLease, mine, chosen]
      refine ⟨fun lease ok => ?_, _, last, fun k other => writtenElsewhere (fresh _ last) choice other⟩
      obtain ⟨exp, _, rfl⟩ := mapOk.mp ok
      cases choice <;> rfl

end Written

section Links
variable {calls : LinkCalls} {link existing : Link} {t after : LinkTable} {name : String} {newMtu : Nat → Nat}

/- The links of other names. -/
def LinkTable.others (name : String) (t : LinkTable) : List Link := t.links.filter (fun l => l.linkAttrs.name ≠ name)

/- No two links have one index. -/
def LinkTable.Indexed (t : LinkTable) : Prop := ∀ l ∈ t.links, ∀ l' ∈ t.links, l.asIndex = l'.asIndex → l = l'

/-- What adding and deleting a link of the name leaves: the indices are not given again. -/
structure LinkTable.Kept (name : String) (before after : LinkTable) : Prop where
  indexed : after.Indexed
  others : after.others name = before.others name
  next : before.nextIndex ≤ after.nextIndex

theorem keptSame (indexed : t.Indexed) : t.Kept name t := ⟨indexed, rfl, Nat.le_refl _⟩

theorem insertedIndexed {link : Link} (indexed : t.Indexed) (newest : ∀ l ∈ t.links, l.asIndex < link.asIndex)
    (links : after.links = t.links ++ [link]) : after.Indexed := by
  intro l mem l' mem' same
  rw [links, List.mem_append, List.mem_singleton] at mem mem'
  rcases mem with old | rfl <;> rcases mem' with old' | rfl
  · exact indexed l old l' old' same
  · exact absurd same (Nat.ne_of_lt (newest l old))
  · exact absurd same.symm (Nat.ne_of_lt (newest l' old'))
  · rfl

theorem addedKept {before : LinkTable} (kept : before.Kept link.linkAttrs.name t) (added : t.linkAdd newMtu link = .ok after) :
    before.Kept link.linkAttrs.name after := by
  have links := (addedLink added).1
  have newest : ∀ l ∈ t.links, l.asIndex < (link.made newMtu t.nextIndex).asIndex := t.below
  refine ⟨insertedIndexed kept.indexed newest links, ?_, ?_⟩
  · refine Eq.trans ?_ kept.others
    unfold LinkTable.others
    rw [links, List.filter_append, List.filter_singleton]
    simp [Link.made]
  · unfold LinkTable.linkAdd at added
    split at added
    · contradiction
    · cases Except.ok.inj added
      exact Nat.le_succ_of_le kept.next

theorem deletedKept {before : LinkTable} (kept : before.Kept name t) (named : t.linkByName name = some existing)
    (deleted : t.linkDel existing.asIndex = .ok after) : before.Kept name after := by
  have isNamed : existing.linkAttrs.name = name := by simpa using List.find?_some named
  have member : existing ∈ t.links := List.mem_of_find?_eq_some named
  unfold LinkTable.linkDel at deleted
  split at deleted
  · cases Except.ok.inj deleted
    refine ⟨fun l mem l' mem' => kept.indexed l (List.mem_filter.mp mem).1 l' (List.mem_filter.mp mem').1, ?_, kept.next⟩
    refine Eq.trans ?_ kept.others
    unfold LinkTable.others LinkTable.without
    rw [List.filter_filter]
    refine List.filter_congr fun l mem => ?_
    by_cases same : l.asIndex = existing.asIndex
    · simp [kept.indexed l mem existing member same, isNamed]
    · simp [same]
  · contradiction

theorem replacedKept (indexed : t.Indexed) : t.Kept link.linkAttrs.name (replaceExisting calls link t).2 := by
  unfold replaceExisting
  split
  · exact keptSame indexed
  · exact keptSame indexed
  · rename_i existing found
    have named : t.linkByName link.linkAttrs.name = some existing := (by simpa using found : _ ∧ _).2
    split
    · exact keptSame indexed
    · split
      · exact keptSame indexed
      · rename_i left deleted
        have gone := deletedKept (keptSame indexed) named (attemptOk.mp (raiseOk.mp (contextOk.mp deleted))).2
        split
        · exact gone
        · rename_i added
          exact addedKept gone (attemptOk.mp (raiseOk.mp (contextOk.mp added))).2

theorem ensuredTable (indexed : t.Indexed) : t.Kept link.linkAttrs.name (ensureVxlanLink calls link t).2 := by
  have replaced := @replacedKept calls link t indexed
  unfold ensureVxlanLink
  split
  · rename_i added
    exact addedKept (keptSame indexed) (attemptOk.mp added).2
  · exact keptSame indexed
  · split
    · split <;> simp_all
    · exact keptSame indexed

/- What is lost is not of the links that are kept. -/
theorem lostLink {p : Link → Bool} {index : Nat} (kept : after.links.filter p = t.links.filter p)
    (lost : t.lost after index = true) : ∃ l ∈ t.links, l.asIndex = index ∧ p l = false := by
  rw [LinkTable.lost, Bool.and_eq_true, Bool.not_eq_true'] at lost
  obtain ⟨l, mem, here⟩ := List.any_eq_true.mp lost.1
  refine ⟨l, mem, of_decide_eq_true here, Bool.not_eq_true _ ▸ fun stays => ?_⟩
  have present : l ∈ after.links.filter p := kept ▸ List.mem_filter.mpr ⟨mem, stays⟩
  exact List.any_eq_false.mp lost.2 l (List.mem_filter.mp present).1 here

theorem lostSame {index : Nat} (same : after.links = t.links) : t.lost after index = false := by
  rw [LinkTable.lost, LinkTable.has, LinkTable.has, same, Bool.and_not_self]

/- A compatible link of the name is met by every call, and none of them changes it. -/
theorem ensuredKept (named : t.linkByName link.linkAttrs.name = some existing)
    (fits : vxlanLinksIncompat link existing = true) : (ensureVxlanLink calls link t).2 = t ∧
      ∀ l, (ensureVxlanLink calls link t).1 = .ok l → l = existing := by
  have found : ∀ l, lookUp calls.found link t = .ok l → l = existing := fun l looked =>
    Option.some.inj ((lookedUp.mp looked).2.symm.trans named)
  unfold ensureVxlanLink
  split
  · rename_i added
    simp [LinkTable.linkAdd, named] at added
  · exact ⟨rfl, by simp⟩
  · split
    · unfold replaceExisting
      rw [named]
      cases calls.existing with
      | some err => simp [attempt, raise, context, Except.mapError]
      | none => simp [attempt, raise, context, Except.mapError, fits]
    · exact ⟨rfl, found⟩

/- The requests differ in MAC and MTU only. -/
theorem requestFits {attrs : VxlanDeviceAttrs} {mac mac' : MacAddr6} {mtu mtu' : Nat} :
    vxlanLinksIncompat (attrs.link mac mtu) existing = vxlanLinksIncompat (attrs.link mac' mtu') existing := rfl

theorem createdFits {attrs : VxlanDeviceAttrs} {mac : MacAddr6} {mtu : Nat} {before : LinkTable} {l : Link}
    (created : Created newMtu (attrs.link mac mtu) before after l) : vxlanLinksIncompat (attrs.link mac mtu) l = true := by
  rw [created.request]
  simp [vxlanLinksIncompat, Link.made, VxlanDeviceAttrs.link, Link.kind, Link.asVxlan]

theorem ensuredNamed {l : Link} (done : ensureVxlanLink calls link t = (.ok l, after)) :
    after.linkByName link.linkAttrs.name = some l := by
  unfold ensureVxlanLink at done
  split at done
  · obtain ⟨found, same⟩ := Prod.mk.inj done
    exact same ▸ (lookedUp.mp found).2
  · simp at done
  · split at done
    · split at done
      · simp at done
      · rename_i replaced
        obtain ⟨same, final⟩ := Prod.mk.inj done
        obtain ⟨_, named, ⟨_, is, unchanged⟩ | ⟨_, is, _⟩⟩ := replacedExisting replaced
        · cases Option.some.inj is
          rw [← final, unchanged, named, Except.ok.inj same]
        · contradiction
      · obtain ⟨found, same⟩ := Prod.mk.inj done
        exact same ▸ (lookedUp.mp found).2
    · obtain ⟨found, same⟩ := Prod.mk.inj done
      exact same ▸ (lookedUp.mp found).2

/- Unless the system refuses to add links, what is returned fits. -/
theorem ensuredFits {attrs : VxlanDeviceAttrs} {mac : MacAddr6} {mtu : Nat} {l : Link}
    (allowed : ∀ kind message, calls.add = some (.io kind message) → kind = .alreadyExists)
    (done : ensureVxlanLink calls (attrs.link mac mtu) t = (.ok l, after)) :
    vxlanLinksIncompat (attrs.link mac mtu) l = true := by
  rcases ensuredLink done with ⟨created, _⟩ | ⟨⟨_, kind, message, failed, fits⟩, _⟩
  · exact createdFits created
  · by_cases exists_ : kind = .alreadyExists
    · exact fits exists_
    · exact absurd (allowed kind message (failedOther failed (CallError.otherKind.mpr exists_))) exists_

end Links

section Addrs
variable {A : Type} [DecidableEq A] {equal : Addr A → Addr A → Bool} {calls : AddrCalls A} {addr : Addr A} {ipn : Ipv4Network}
variable {existingAddrs addrs : List (Addr A)} {hasAddr : Bool}

/- Some addresses of the network are gone. -/
def Thinned (ipn : Ipv4Network) (before after : List (Addr A)) : Prop :=
  after.Sublist before ∧ after.filter (fun a => !inside ipn a) = before.filter (fun a => !inside ipn a)

omit [DecidableEq A] in
theorem thinnedSame : Thinned ipn addrs addrs := ⟨List.Sublist.refl _, rfl⟩

/- However far the loop comes. -/
theorem deletedThin : Thinned ipn addrs (deleteOthers equal calls addr ipn existingAddrs hasAddr addrs).2 := by
  induction existingAddrs generalizing hasAddr addrs with
  | nil => exact thinnedSame
  | cons existing rest ih =>
    unfold deleteOthers
    split
    · exact ih
    · split
      · exact ih
      · rename_i ip address
        split
        · rename_i contained
          split
          · exact thinnedSame
          · rename_i left deleted
            have erased := (answerOk.mp (contextOk.mp deleted)).2
            unfold addrDel at erased
            split at erased
            · cases Except.ok.inj erased
              have goes : inside ipn existing = true := by simp only [inside, address, contained]
              have absent : existing ∉ addrs.filter (fun a => !inside ipn a) := by simp [goes]
              have first : Thinned ipn addrs (addrs.erase existing) :=
                ⟨List.erase_sublist, by rw [← List.erase_filter, List.erase_of_not_mem absent]⟩
              have later := @ih (addrs.erase existing) hasAddr
              exact ⟨later.1.trans first.1, later.2.trans first.2⟩
            · contradiction
        · exact ih

theorem ensuredThin [Inhabited A] {ip : Ipv4Network} : ∃ left, Thinned ipn addrs left ∧
    ((ensureV4AddrOnLink equal calls ip ipn addrs).2 = left ∨
      (ensureV4AddrOnLink equal calls ip ipn addrs).2 = left ++ [⟨.v4 ip, default⟩]) := by
  unfold ensureV4AddrOnLink
  dsimp only
  split
  · exact ⟨addrs, thinnedSame, .inl rfl⟩
  · rename_i listed answered
    have thin := @deletedThin A _ equal calls ⟨.v4 ip, default⟩ ipn listed addrs false
    split
    · rename_i ended
      rw [ended] at thin
      exact ⟨_, thin, .inl rfl⟩
    · rename_i ended
      rw [ended] at thin
      exact ⟨_, thin, .inl rfl⟩
    · rename_i left ended
      rw [ended] at thin
      split
      · exact ⟨left, thin, .inl rfl⟩
      · rename_i added
        exact ⟨left, thin, .inr (addedAddr (answerOk.mp (contextOk.mp added)).2)⟩

end Addrs

section Vxlan
variable {K V A : Type} [DecidableEq K] [DecidableEq A] [Inhabited A] (codec : Codec K V)
variable (equal : Addr A → Addr A → Bool) (formatMac : MacAddr6 → String) (build : Build) (r : Registration K V A)
variable (extIface : ExternalInterface) (config : Config) (host : Host K V A)

/- The device of a registration: the link is made, or its making fails. -/
def newDevice (vxlanConfig : VxlanConfig) (attrs : VxlanDeviceAttrs) : Res VxlanDevice × LinkTable :=
  VxlanDevice.new build r.vxlan.link r.vxlan.random attrs vxlanConfig.directRouting host.links

/-- How far a registration comes: to its device, to its lease, or to its addresses. -/
inductive Leaves : Host K V A → Prop where
  | nothing : Leaves host
  | device {vxlanConfig attrs made links} (read : vxlanAttrs extIface config = .ok (vxlanConfig, attrs))
      (new : newDevice build r host vxlanConfig attrs = (made, links)) : Leaves (host.withLinks links)
  | lease {vxlanConfig attrs device links mac acquired db} (read : vxlanAttrs extIface config = .ok (vxlanConfig, attrs))
      (new : newDevice build r host vxlanConfig attrs = (.ok device, links))
      (hardware : device.link.linkAttrs.hardwareAddr = some mac)
      (acquire : acquireLease codec build r.fuel r.stored (vxlanLeaseAttrs formatMac extIface vxlanConfig.vni mac) r.attempts
        host.db = (acquired, db)) : Leaves { host.withLinks links with db }
  | addrs {vxlanConfig attrs device links mac lease db net ipa done addrs}
      (read : vxlanAttrs extIface config = .ok (vxlanConfig, attrs))
      (new : newDevice build r host vxlanConfig attrs = (.ok device, links))
      (hardware : device.link.linkAttrs.hardwareAddr = some mac)
      (acquire : acquireLease codec build r.fuel r.stored (vxlanLeaseAttrs formatMac extIface vxlanConfig.vni mac) r.attempts
        host.db = (.ok lease, db)) (network : config.network = some net) (address : Ipv4Network.new lease.subnet.ip 32 = some ipa)
      (configure : device.configure equal r.vxlan.addr r.vxlan.setUp ipa net (host.withLinks links).addrs = (done, addrs)) :
      Leaves { host.withLinks links with addrs, db }

variable {codec} {equal} {formatMac} {build} {r} {extIface} {config} {host} {after : Host K V A} {n : VxlanNetwork}

theorem vxlanLeaves : Leaves codec equal formatMac build r extIface config host
    (vxlanRegisterNetwork codec equal formatMac build r.fuel r.stored r.attempts r.vxlan extIface config host).2 := by
  unfold vxlanRegisterNetwork
  split
  · exact .nothing
  · rename_i vxlanConfig attrs read
    split
    · rename_i new
      exact .device read new
    · rename_i device links new
      split
      · exact .device read new
      · rename_i mac hardware
        have hardware := unwrapOk.mp hardware
        dsimp only
        split
        · exact .lease read new hardware rfl
        · rename_i lease net ipa ready
          simp only [bindOk] at ready
          obtain ⟨_, acquired, _, network, _, address, last⟩ := ready
          cases Except.ok.inj last
          split
          · rename_i configure
            exact .addrs read new hardware (Prod.ext acquired rfl) (okOrOk.mp network) (okOrOk.mp address) configure
          · rename_i configure
            exact .addrs read new hardware (Prod.ext acquired rfl) (okOrOk.mp network) (okOrOk.mp address) configure

variable {vxlanConfig : VxlanConfig} {attrs : VxlanDeviceAttrs} {device : VxlanDevice} {links : LinkTable}

omit [DecidableEq K] [DecidableEq A] [Inhabited A] in
theorem newDeviceKept (indexed : host.links.Indexed) :
    host.links.Kept attrs.name (newDevice build r host vxlanConfig attrs).2 := by
  unfold newDevice VxlanDevice.new
  dsimp only
  split
  · exact keptSame indexed
  · rename_i mtu _
    exact @ensuredTable r.vxlan.link (attrs.link (newHardwareAddr r.vxlan.random) mtu) _ indexed

omit [DecidableEq K] [DecidableEq A] [Inhabited A] in
theorem newDeviceNamed (new : newDevice build r host vxlanConfig attrs = (.ok device, links)) :
    device.link ∈ links.links ∧ device.link.linkAttrs.name = attrs.name := by
  obtain ⟨mtu, _, ensured⟩ := deviceMade new
  rcases ensuredLink ensured with ⟨created, _⟩ | ⟨taken, same⟩
  · refine ⟨created.present, ?_⟩
    rw [created.request]
    rfl
  · rw [same]
    have named : device.link.linkAttrs.name = (attrs.link (newHardwareAddr r.vxlan.random) mtu).linkAttrs.name := by
      simpa using List.find?_some taken.named
    exact ⟨List.mem_of_find?_eq_some taken.named, named⟩

omit [DecidableEq K] in
theorem configuredAddrs {setUp : Option String} {ipa net : Ipv4Network} {addrCalls : AddrCalls A} {addrs left : Nat → List (Addr A)}
    {done : Res Unit} (configure : device.configure equal addrCalls setUp ipa net addrs = (done, left)) :
    left = Function.update addrs device.linkIndex (ensureV4AddrOnLink equal addrCalls ipa net (addrs device.linkIndex)).2 := by
  unfold VxlanDevice.configure at configure
  split at configure
  · rename_i ended
    rw [← (Prod.mk.inj configure).2, ended]
  · rename_i ended
    rw [← (Prod.mk.inj configure).2, ended]

end Vxlan

section Own
variable {K V A : Type} [DecidableEq K] [DecidableEq A] [Inhabited A]

/- The name of a start's own device and the overlay network, once the start is prepared. -/
def ownDevice : Res (ExternalInterface × Config × Backend) → Option (String × Ipv4Network)
  | .ok (extIface, config, .vxlan) =>
    match vxlanAttrs extIface config, config.network with
    | .ok (_, attrs), some net => some (attrs.name, net)
    | _, _ => none
  | _ => none

/-- Apart from the links of one name with their addresses and routes, and one entry of the
store, the host is as before. -/
structure OnlyOwn (codec : Codec K V) (own : Option (String × Ipv4Network)) (lefts : List (Etcd K V)) (sn : Ipv4Network)
    (host after : Host K V A) : Prop where
  links : after.links.links.filter (fun l => own.map Prod.fst ≠ some l.linkAttrs.name) =
    host.links.links.filter (fun l => own.map Prod.fst ≠ some l.linkAttrs.name)
  lost : ∀ index, host.links.lost after.links index = true →
    ∃ l ∈ host.links.links, l.asIndex = index ∧ own.map Prod.fst = some l.linkAttrs.name
  addrs : ∀ index, after.addrs index = host.addrs index ∨
    (host.links.lost after.links index = true ∧ after.addrs index = []) ∨ ∃ name net left, own = some (name, net) ∧
      (∃ l ∈ after.links.links, l.asIndex = index ∧ l.linkAttrs.name = name) ∧ Thinned net (host.addrs index) left ∧
      (after.addrs index = left ∨ after.addrs index = left ++ [⟨.v4 ⟨sn.ip, 32, Nat.le_refl 32⟩, default⟩])
  routes : after.routes = host.routes.filter (fun route => !host.links.lost after.links route.linkIndex)
  entries : ∃ left ∈ lefts, ∀ k ≠ codec.key sn, after.db.get k = left.get k

/-- No two links have one index, and no address or route is over an index that is yet to be given. -/
structure Consistent (host : Host K V A) : Prop where
  indexed : host.links.Indexed
  addrs : ∀ index, host.links.nextIndex ≤ index → host.addrs index = []
  routes : ∀ route ∈ host.routes, route.linkIndex < host.links.nextIndex

variable {codec : Codec K V} {equal : Addr A → Addr A → Bool} {formatMac : MacAddr6 → String} {crates : TextCrates}
variable {build : Build} {args : Args} {r : Registration K V A} {extIface : ExternalInterface} {config : Config}
variable {host after : Host K V A} {calls : StartCalls K V A} {m : Machine K V A} {own : Option (String × Ipv4Network)}
variable {lefts : List (Etcd K V)} {sn : Ipv4Network} {db : Etcd K V} {links : LinkTable} {tun : Tun} {bn : Network}

omit [DecidableEq A] in
/- A node without a device of its own changes the store alone. -/
theorem ownStore (own : OnlyOwn codec none lefts sn host after) :
    after.links.links = host.links.links ∧ after.addrs = host.addrs ∧ after.routes = host.routes := by
  have links : after.links.links = host.links.links := by simpa using own.links
  refine ⟨links, funext fun index => ?_, by simpa [lostSame links] using own.routes⟩
  rcases own.addrs index with same | ⟨gone, _⟩ | ⟨_, _, _, none_, _⟩
  · exact same
  · rw [lostSame links] at gone
    contradiction
  · contradiction

omit [DecidableEq K] [DecidableEq A] [Inhabited A] in
theorem withLinksAddrs {index : Nat} : (host.withLinks links).addrs index = host.addrs index ∨
    (host.links.lost links index = true ∧ (host.withLinks links).addrs index = []) := by
  cases lost : host.links.lost links index with
  | true => exact .inr ⟨rfl, if_pos lost⟩
  | false => exact .inl (if_neg (Bool.eq_false_iff.mp lost))

omit [DecidableEq A] in
theorem ownWithLinks (kept : links.links.filter (fun l => own.map Prod.fst ≠ some l.linkAttrs.name) =
      host.links.links.filter (fun l => own.map Prod.fst ≠ some l.linkAttrs.name))
    (entries : ∃ left ∈ lefts, ∀ k ≠ codec.key sn, db.get k = left.get k) :
    OnlyOwn codec own lefts sn host { host.withLinks links with db } where
  links := kept
  lost := fun index lost => by simpa using lostLink kept lost
  addrs := fun index => withLinksAddrs.imp_right Or.inl
  routes := rfl
  entries

omit [DecidableEq K] [DecidableEq A] [Inhabited A] in
theorem withSame (same : links.links = host.links.links) : host.withLinks links = { host with links } := by
  simp [Host.withLinks, lostSame same]

omit [DecidableEq A] in
theorem onlyEntries (same : links.links = host.links.links) (entries : ∃ left ∈ lefts, ∀ k ≠ codec.key sn, db.get k = left.get k) :
    OnlyOwn codec own lefts sn host { host with links, db } := by
  have touched := @ownWithLinks _ _ _ _ _ codec host own lefts sn db links (by rw [same]) entries
  rwa [withSame same] at touched

omit [DecidableEq K] [DecidableEq A] [Inhabited A] in
theorem withLinksConsistent {name : String} (consistent : Consistent host) (kept : host.links.Kept name links) :
    Consistent { host.withLinks links with db } where
  indexed := kept.indexed
  addrs := fun index newer => by
    rcases @withLinksAddrs _ _ _ host links index with same | ⟨_, none_⟩
    · exact same.trans (consistent.addrs index (Nat.le_trans kept.next newer))
    · exact none_
  routes := fun route mem => Nat.lt_of_lt_of_le (consistent.routes route (List.mem_filter.mp mem).1) kept.next

variable {device : VxlanDevice} {addrCalls : AddrCalls A} {setUp : Option String} {net : Ipv4Network} {done : Res Unit}
variable {addrs : Nat → List (Addr A)}

omit [DecidableEq K] in
theorem configuredConsistent {ipa : Ipv4Network} (before : Consistent { host.withLinks links with db })
    (member : device.link ∈ links.links)
    (configure : device.configure equal addrCalls setUp ipa net (host.withLinks links).addrs = (done, addrs)) :
    Consistent { host.withLinks links with addrs, db } where
  indexed := before.indexed
  addrs := fun index newer => by
    have older : device.linkIndex < links.nextIndex := links.below _ member
    change addrs index = []
    rw [configuredAddrs configure, Function.update_of_ne (Nat.ne_of_gt (Nat.lt_of_lt_of_le older newer))]
    exact before.addrs index newer
  routes := before.routes

/- On the link of the device some addresses may go and that of the lease may come. -/
theorem configuredOwn {name : String} (isOwn : own = some (name, net))
    (touched : OnlyOwn codec own lefts sn host { host.withLinks links with db }) (member : device.link ∈ links.links)
    (named : device.link.linkAttrs.name = name)
    (configure : device.configure equal addrCalls setUp ⟨sn.ip, 32, Nat.le_refl 32⟩ net (host.withLinks links).addrs = (done, addrs)) :
    OnlyOwn codec own lefts sn host { host.withLinks links with addrs, db } := by
  have configured := configuredAddrs configure
  refine ⟨touched.links, touched.lost, fun index => ?_, touched.routes, touched.entries⟩
  by_cases here : index = device.linkIndex
  · have present : host.links.lost links index = false := by
      have listed : links.has index = true := List.any_eq_true.mpr ⟨device.link, member, decide_eq_true here.symm⟩
      rw [LinkTable.lost, listed, Bool.not_true, Bool.and_false]
    have same : (host.withLinks links).addrs index = host.addrs index := if_neg (Bool.eq_false_iff.mp present)
    obtain ⟨thinned, thin, ends⟩ := @ensuredThin A _ equal addrCalls net (host.addrs index) _ ⟨sn.ip, 32, Nat.le_refl 32⟩
    have set : addrs index =
        (ensureV4AddrOnLink equal addrCalls ⟨sn.ip, 32, Nat.le_refl 32⟩ net (host.addrs index)).2 := by
      rw [configured, here, Function.update_self, ← here, same]
    exact .inr (.inr ⟨name, net, thinned, isOwn, ⟨device.link, member, here.symm, named⟩, thin,
      ends.imp set.trans set.trans⟩)
  · have untouched : addrs index = (host.withLinks links).addrs index := by rw [configured, Function.update_of_ne here]
    have elsewhere := @withLinksAddrs _ _ _ host links index
    rw [← untouched] at elsewhere
    exact elsewhere.imp_right Or.inl

theorem leavesOwn (consistent : Consistent host) (given : config.network = some net)
    (entryOf : EntryOf codec build r.fuel r.stored r.attempts extIface.ifaceAddr host.db sn)
    (leaves : Leaves codec equal formatMac build r extIface config host after) : Consistent after ∧
    OnlyOwn codec (ownDevice (.ok (extIface, config, .vxlan))) (leftByOthers codec (r.attempts 0) host.db) sn host after := by
  have unwritten : ∃ left ∈ leftByOthers codec (r.attempts 0) host.db, ∀ k ≠ codec.key sn, host.db.get k = left.get k :=
    ⟨host.db, List.mem_cons_self, fun _ _ => rfl⟩
  have links : ∀ vxlanConfig attrs, vxlanAttrs extIface config = .ok (vxlanConfig, attrs) →
      (newDevice build r host vxlanConfig attrs).2.links.filter
          (fun l => (ownDevice (.ok (extIface, config, .vxlan))).map Prod.fst ≠ some l.linkAttrs.name) =
        host.links.links.filter
          (fun l => (ownDevice (.ok (extIface, config, .vxlan))).map Prod.fst ≠ some l.linkAttrs.name) := by
    intro vxlanConfig attrs read
    have others := (@newDeviceKept _ _ _ build r host vxlanConfig attrs consistent.indexed).others
    simpa [ownDevice, read, given, LinkTable.others, eq_comm] using others
  have kept : ∀ {vxlanConfig attrs}, host.links.Kept attrs.name (newDevice build r host vxlanConfig attrs).2 :=
    newDeviceKept consistent.indexed
  cases leaves with
  | nothing => exact ⟨consistent, onlyEntries rfl unwritten⟩
  | @device vxlanConfig attrs made left read new =>
    have same : (newDevice build r host vxlanConfig attrs).2 = left := congrArg Prod.snd new
    exact ⟨withLinksConsistent consistent (same ▸ kept), ownWithLinks (same ▸ links _ _ read) unwritten⟩
  | @lease vxlanConfig attrs device left mac acquired db read new hardware acquire =>
    have same : (newDevice build r host vxlanConfig attrs).2 = left := congrArg Prod.snd new
    obtain ⟨_, entries⟩ := entryOf (vxlanLeaseAttrs formatMac extIface vxlanConfig.vni mac) rfl
    rw [acquire] at entries
    exact ⟨withLinksConsistent consistent (same ▸ kept), ownWithLinks (same ▸ links _ _ read) entries⟩
  | @addrs vxlanConfig attrs device left mac lease db net' ipa done addrs read new hardware acquire network address configure =>
    have same : (newDevice build r host vxlanConfig attrs).2 = left := congrArg Prod.snd new
    obtain ⟨subnet, entries⟩ := entryOf (vxlanLeaseAttrs formatMac extIface vxlanConfig.vni mac) rfl
    rw [acquire] at entries subnet
    cases subnet lease rfl
    cases Option.some.inj (given.symm.trans network)
    cases Option.some.inj ((newValid (Nat.le_refl 32)).symm.trans address)
    obtain ⟨member, named⟩ := newDeviceNamed new
    have isOwn : ownDevice (.ok (extIface, config, .vxlan)) = some (attrs.name, net) := by simp [ownDevice, read, given]
    exact ⟨configuredConsistent (withLinksConsistent consistent (same ▸ kept)) member configure,
      configuredOwn isOwn (ownWithLinks (same ▸ links _ _ read) entries) member named configure⟩

omit [DecidableEq A] [Inhabited A] in
theorem hostGwStore {db : Etcd K V} : (hostGwRegisterNetwork codec build r.fuel r.stored r.attempts extIface db).2 =
    match extIface.extAddr with
    | none => db
    | some publicIp =>
      (acquireLease codec build r.fuel r.stored { publicIp, backendType := some "host-gw" } r.attempts db).2 := by
  unfold hostGwRegisterNetwork
  cases extIface.extAddr <;> rfl

omit [DecidableEq K] [DecidableEq A] in
theorem tunAddrs {index : Nat} : (host.withTun (some tun)).addrs index =
    if index = tun.linkIndex then host.addrs index ++ [⟨.v4 tun.addr, default⟩] else host.addrs index := by
  simp only [Host.withTun, Function.update_apply]
  split
  · rename_i same
    rw [same]
  · rfl

omit [DecidableEq K] [DecidableEq A] in
theorem tunConsistent (consistent : Consistent host) (newest : tun.linkIndex = host.links.nextIndex)
    (route : tun.route.linkIndex = tun.linkIndex) : Consistent (host.withTun (some tun)) where
  indexed := by
    have older : ∀ l ∈ host.links.links, l.asIndex < tun.link.asIndex := fun l mem => by
      change l.asIndex < tun.linkIndex
      rw [newest]
      exact host.links.below l mem
    exact insertedIndexed consistent.indexed older rfl
  addrs := fun index newer => by
    have last : tun.linkIndex + 1 ≤ index := Nat.le_trans (Nat.le_max_right _ _) newer
    rw [tunAddrs, if_neg (Nat.ne_of_gt last)]
    exact consistent.addrs index (by omega)
  routes := fun route' mem => by
    change route'.linkIndex < max host.links.nextIndex (tun.linkIndex + 1)
    rcases List.mem_append.mp mem with old | new
    · exact Nat.lt_of_lt_of_le (consistent.routes route' old) (Nat.le_max_left _ _)
    · rw [List.mem_singleton.mp new, route]
      exact Nat.le_max_right _ _

omit [DecidableEq K] [DecidableEq A] in
/- The device goes, and with it all that it brought. -/
theorem tunReleased (consistent : Consistent host) (newest : tun.linkIndex = host.links.nextIndex)
    (route : tun.route.linkIndex = tun.linkIndex) (isTun : bn.tun = some tun) :
    ∃ links, links.links = host.links.links ∧ host.links.nextIndex ≤ links.nextIndex ∧
      bn.released (host.withTun (some tun)) = { host with links } := by
  have older : ∀ l ∈ host.links.links, l.asIndex ≠ tun.linkIndex := fun l mem =>
    newest ▸ Nat.ne_of_lt (host.links.below l mem)
  have left : ((host.withTun (some tun)).links.without tun.linkIndex).links = host.links.links := by
    change (host.links.links ++ [tun.link]).filter (fun l => l.asIndex ≠ tun.linkIndex) = host.links.links
    rw [List.filter_append, List.filter_eq_self.mpr (fun l mem => decide_eq_true (older l mem))]
    simp [Tun.link, Link.asIndex]
  have lost : ∀ index, (host.withTun (some tun)).links.lost ((host.withTun (some tun)).links.without tun.linkIndex) index =
      decide (index = tun.linkIndex) := by
    intro index
    have absent : host.links.has tun.linkIndex = false := List.any_eq_false.mpr fun l mem => by simpa using older l mem
    rw [LinkTable.lost, LinkTable.has, LinkTable.has, left]
    change ((host.links.links ++ [tun.link]).any _ && !host.links.has index) = _
    rw [List.any_append]
    change ((host.links.has index || _) && _) = _
    by_cases same : index = tun.linkIndex
    · simp [absent, same, Tun.link, Link.asIndex]
    · cases host.links.has index <;> simp [same, Ne.symm same, Tun.link, Link.asIndex]
  refine ⟨(host.withTun (some tun)).links.without tun.linkIndex, left, Nat.le_max_left _ _, ?_⟩
  have addrs : (fun index => if decide (index = tun.linkIndex) then [] else (host.withTun (some tun)).addrs index) =
      host.addrs := by
    funext index
    rw [tunAddrs]
    by_cases same : index = tun.linkIndex
    · simp [same, newest, consistent.addrs]
    · simp [same]
  have routes : (host.routes ++ [tun.route]).filter (fun route => !decide (route.linkIndex = tun.linkIndex)) = host.routes := by
    rw [List.filter_append, List.filter_eq_self.mpr]
    · simp [route]
    · intro route' mem
      simpa [newest] using Nat.ne_of_lt (consistent.routes route' mem)
  simp only [Network.released, isTun, Host.withLinks, lost, addrs]
  rw [← routes]
  rfl

/-- What a registration leaves: the host as others have it but for what is the node's own, and
the TUN device of a network that has one. -/
structure Registers (codec : Codec K V) (build : Build) (r : Registration K V A) (extIface : ExternalInterface) (config : Config)
    (backend : Backend) (sn : Ipv4Network) (host touched : Host K V A) (x : Res Network × Host K V A) : Prop where
  own : OnlyOwn codec (ownDevice (.ok (extIface, config, backend))) (leftByOthers codec (r.attempts 0) host.db) sn host touched
  consistent : Consistent touched
  fails : ∀ stop, x.1 = .error stop → x.2 = touched
  done : ∀ bn, x.1 = .ok bn → bn.lease.subnet = sn ∧ x.2 = touched.withTun bn.tun
  tun : ∀ bn tun, x.1 = .ok bn → bn.tun = some tun → touched.links = host.links ∧ tun.linkIndex = host.links.nextIndex ∧
    bn.mtu build = .ok tun.mtu ∧ ∃ net, config.network = some net ∧ TunFor ⟨sn.ip, net.prefixLen, net.valid⟩ tun

theorem registeredOwn {backend : Backend} {net : Ipv4Network} {backendType : String} (consistent : Consistent host)
    (given : config.network = some net) (got : getBackend extIface backendType = .ok backend)
    (entryOf : EntryOf codec build r.fuel r.stored r.attempts extIface.ifaceAddr host.db sn) :
    ∃ touched, Registers codec build r extIface config backend sn host touched
      (registerNetwork codec equal formatMac build r extIface config host backend) := by
  have lease : ∀ {bn after}, registerNetwork codec equal formatMac build r extIface config host backend = (.ok bn, after) →
      bn.lease.subnet = sn := by
    intro bn after registered
    obtain ⟨attrs, advertises, acquired⟩ := networkAcquired got registered
    exact (entryOf attrs (advertisesAddress advertises)).1 _ (congrArg Prod.fst acquired)
  cases backend with
  | udp =>
    obtain ⟨_, entries⟩ := entryOf { publicIp := extIface.ifaceAddr } rfl
    refine ⟨{ host with db := (acquireLease codec build r.fuel r.stored { publicIp := extIface.ifaceAddr } r.attempts host.db).2 },
      onlyEntries rfl entries, ⟨consistent.indexed, consistent.addrs, consistent.routes⟩, fun stop failed => ?_,
      fun bn ok => ⟨lease (Prod.ext ok rfl), ?_⟩, fun bn tun ok isTun => ⟨rfl, ?_⟩⟩
    · rw [registerNetwork] at failed ⊢
      dsimp only at failed ⊢
      split at failed
      · rfl
      · cases failed
    · obtain ⟨n, db, rfl, after, registered⟩ := registeredUdp.mp (Prod.ext ok rfl)
      cases congrArg Prod.snd registered
      exact after
    · obtain ⟨n, db, rfl, _, registered⟩ := registeredUdp.mp (Prod.ext ok rfl)
      obtain ⟨_, net', tun', given', device, known, named, isFor⟩ := udpTun (congrArg Prod.fst registered)
      cases Option.some.inj (device.symm.trans isTun)
      have subnet : n.subnetLease.subnet = sn := lease (Prod.ext ok rfl)
      exact ⟨indexGiven named, known, net', given', subnet ▸ isFor⟩
  | vxlan =>
    obtain ⟨stays, own⟩ := leavesOwn consistent given entryOf
      (@vxlanLeaves _ _ _ _ _ _ codec equal formatMac build r extIface config host)
    refine ⟨_, own, stays, fun _ _ => rfl, fun bn ok => ⟨lease (Prod.ext ok rfl), ?_⟩, fun bn tun ok isTun => ?_⟩
    · obtain ⟨n, _, rfl⟩ := mapOk.mp ok
      rfl
    · obtain ⟨n, _, rfl⟩ := mapOk.mp ok
      contradiction
  | hostGw =>
    have address := gotHostGw got
    obtain ⟨_, entries⟩ := entryOf { publicIp := extIface.ifaceAddr, backendType := some "host-gw" } rfl
    have left := @hostGwStore _ _ _ _ codec build r extIface host.db
    rw [address] at left
    refine ⟨{ host with db := (hostGwRegisterNetwork codec build r.fuel r.stored r.attempts extIface host.db).2 },
      onlyEntries rfl (left ▸ entries), ⟨consistent.indexed, consistent.addrs, consistent.routes⟩, fun _ _ => rfl, fun bn ok => ⟨lease (Prod.ext ok rfl), ?_⟩,
      fun bn tun ok isTun => ?_⟩
    · obtain ⟨n, _, rfl⟩ := mapOk.mp ok
      rfl
    · obtain ⟨n, _, rfl⟩ := mapOk.mp ok
      contradiction

/- The writer creates and fills the temporary file and renames it. -/
theorem writtenFiles {build : Build} {calls : FileCalls} {path : Path} {config : Config} {ipMasq : Bool} {sn : Ipv4Network}
    {mtu : Nat} {disk : Disk} {other : Path} (notFile : other ≠ path) (notTmp : tmpFilePath path ≠ .ok other) :
    (writeSubnetFile build calls path config ipMasq sn mtu disk).2 other = disk other := by
  unfold writeSubnetFile
  split
  · rfl
  · rfl
  · rfl
  · rename_i tmp made _ _
    have apart : other ≠ tmp := fun same => notTmp (same ▸ made)
    have filled := @writeEntriesOther other tmp 0 (disk.create tmp) calls.write (envEntries build config ipMasq sn mtu) apart
    have untouched := filled.trans (Function.update_of_ne apart ..)
    split
    · rename_i ended
      rw [ended] at untouched
      exact untouched
    · rename_i ended
      rw [ended] at untouched
      split
      · exact untouched
      · exact (Function.update_of_ne apart ..).trans ((Function.update_of_ne notFile ..).trans untouched)

/- The registration fails, or a later step, or the start succeeds. -/
theorem mainEnds {backend : Backend} {result : Res Started} {last : Machine K V A}
    (ready : prepare crates build args calls m.disk = .ok (extIface, config, backend))
    (ended : main codec equal formatMac crates build args calls m = (result, last)) :
    let registration := registerNetwork codec equal formatMac build calls.registration extIface config m.host backend
    (∃ stop, result = .error stop ∧ registration = (.error stop, last.host)) ∨
      (∃ bn host stop, result = .error stop ∧ registration = (.ok bn, host) ∧ last.host = bn.released host) ∨
      ∃ bn, result = .ok ⟨extIface, config, bn⟩ ∧ registration = (.ok bn, last.host) := by
  unfold main at ended
  rw [ready] at ended
  dsimp only at ended
  split at ended
  · rename_i stop host registered
    cases ended
    exact .inl ⟨stop, rfl, registered⟩
  · rename_i bn host registered
    split at ended
    · rename_i stop _
      cases ended
      exact .inr (.inl ⟨bn, host, stop, rfl, registered, rfl⟩)
    · split at ended
      · rename_i stop disk _
        cases ended
        exact .inr (.inl ⟨bn, host, stop, rfl, registered, rfl⟩)
      · cases ended
        exact .inr (.inr ⟨bn, rfl, registered⟩)

theorem mainFiles {path : Path} {result : Res Started} {last : Machine K V A} (notFile : path ≠ args.subnetFile)
    (notTmp : tmpFilePath args.subnetFile ≠ .ok path)
    (ended : main codec equal formatMac crates build args calls m = (result, last)) : last.disk path = m.disk path := by
  unfold main at ended
  split at ended
  · cases ended
    rfl
  · split at ended
    · cases ended
      rfl
    · split at ended
      · cases ended
        rfl
      · split at ended
        · rename_i wrote
          cases ended
          exact (congrArg (fun x : Res Unit × Disk => x.2 path) wrote).symm.trans (writtenFiles notFile notTmp)
        · rename_i wrote
          cases ended
          exact (congrArg (fun x : Res Unit × Disk => x.2 path) wrote).symm.trans (writtenFiles notFile notTmp)

omit [DecidableEq A] in
theorem ownSameLinks (own' : OnlyOwn codec own lefts sn host after) (same : links.links = after.links.links) :
    OnlyOwn codec own lefts sn host { after with links } where
  links := same ▸ own'.links
  lost := fun index lost => own'.lost index (by rwa [LinkTable.lost, LinkTable.has, LinkTable.has, same] at lost)
  addrs := fun index => by
    have kept := own'.addrs index
    rwa [LinkTable.lost, LinkTable.has, LinkTable.has, ← same] at kept
  routes := by
    refine own'.routes.trans (List.filter_congr fun route _ => ?_)
    rw [LinkTable.lost, LinkTable.lost, LinkTable.has, LinkTable.has, LinkTable.has, same]
  entries := own'.entries

def startedTun : Res Started → Option Tun
  | .ok s => s.network.tun
  | .error _ => none

/-- What a start changes: the subnet file and the one beside it, what is its own on the host, and
the TUN device that it goes on with. -/
structure TouchesOwn (codec : Codec K V) (crates : TextCrates) (build : Build) (args : Args) (calls : StartCalls K V A)
    (m : Machine K V A) (sn : Ipv4Network) (touched : Host K V A) (x : Res Started × Machine K V A) : Prop where
  files : ∀ path, path ≠ args.subnetFile → tmpFilePath args.subnetFile ≠ .ok path → x.2.disk path = m.disk path
  own : OnlyOwn codec (ownDevice (prepare crates build args calls m.disk)) (leftByOthers codec (calls.registration.attempts 0) m.host.db)
    sn m.host touched
  host : x.2.host = touched.withTun (startedTun x.1)
  lease : ∀ s, x.1 = .ok s → s.network.lease.subnet = sn
  tun : ∀ s tun, x.1 = .ok s → s.network.tun = some tun → (∀ l ∈ m.host.links.links, l.asIndex ≠ tun.linkIndex) ∧
    s.network.mtu build = .ok tun.mtu ∧ ∃ net, s.config.network = some net ∧ TunFor ⟨sn.ip, net.prefixLen, net.valid⟩ tun
  consistent : Consistent x.2.host

omit [DecidableEq A] in
theorem failedTouches {stop : Stop} {last : Machine K V A}
    (files : ∀ path, path ≠ args.subnetFile → tmpFilePath args.subnetFile ≠ .ok path → last.disk path = m.disk path)
    (own : OnlyOwn codec (ownDevice (prepare crates build args calls m.disk))
      (leftByOthers codec (calls.registration.attempts 0) m.host.db) sn m.host last.host) (consistent : Consistent last.host) :
    TouchesOwn codec crates build args calls m sn last.host (.error stop, last) where
  files
  own
  host := rfl
  lease := fun _ ok => by simp at ok
  tun := fun _ _ ok => by simp at ok
  consistent

theorem startTouchesOwn (consistent : Consistent m.host)
    (fresh : ∀ left ∈ leftByOthers codec (calls.registration.attempts 0) m.host.db,
      FreshGrant (calls.registration.attempts 0).write left) :
    ∃ sn touched, TouchesOwn codec crates build args calls m sn touched
      (main codec equal formatMac crates build args calls m) := by
  rcases ended : main codec equal formatMac crates build args calls m with ⟨result, last⟩
  have files : ∀ path, path ≠ args.subnetFile → tmpFilePath args.subnetFile ≠ .ok path → last.disk path = m.disk path :=
    fun path notFile notTmp => mainFiles notFile notTmp ended
  cases ready : prepare crates build args calls m.disk with
  | error stop =>
    have unwritten : ∃ left ∈ leftByOthers codec (calls.registration.attempts 0) m.host.db, ∀ k ≠ codec.key (cidr 0 0),
        m.host.db.get k = left.get k := ⟨m.host.db, List.mem_cons_self, fun _ _ => rfl⟩
    rw [main, ready] at ended
    cases ended
    exact ⟨cidr 0 0, m.host, failedTouches files (onlyEntries rfl unwritten) consistent⟩
  | ok prepared' =>
    obtain ⟨extIface, config, backend⟩ := prepared'
    obtain ⟨_, accepted, got⟩ := prepared ready
    obtain ⟨_, _, network, given⟩ := acceptedNetwork accepted
    obtain ⟨sn, entryOf⟩ := @acquiredElsewhere _ _ _ codec m.host.db build calls.registration.fuel calls.registration.stored
      calls.registration.attempts extIface.ifaceAddr fresh
    obtain ⟨touched, registers⟩ := @registeredOwn _ _ _ _ _ _ codec equal formatMac build calls.registration extIface config
      m.host sn backend network _ consistent given got entryOf
    have own := registers.own
    rw [← ready] at own
    rcases mainEnds ready ended with ⟨stop, rfl, registered⟩ | ⟨bn, host, stop, rfl, registered, goes⟩ | ⟨bn, rfl, registered⟩
    · rw [registered] at registers
      have same : last.host = touched := registers.fails stop rfl
      rw [← same] at own
      exact ⟨sn, last.host, failedTouches files own (same ▸ registers.consistent)⟩
    · rw [registered] at registers
      have same : host = touched.withTun bn.tun := (registers.done bn rfl).2
      -- what the start does not go on with is released
      cases isTun : bn.tun with
      | none =>
        rw [Network.released, isTun] at goes
        rw [isTun] at same
        have same : last.host = touched := goes.trans same
        rw [← same] at own
        exact ⟨sn, last.host, failedTouches files own (same ▸ registers.consistent)⟩
      | some tun =>
        obtain ⟨unchanged, newest, _, _, _, isFor⟩ := registers.tun bn tun rfl isTun
        obtain ⟨links, left, later, released⟩ := tunReleased registers.consistent (unchanged ▸ newest) (by rw [isFor.route]) isTun
        rw [same, isTun, released] at goes
        have own := ownSameLinks own left
        have kept : Consistent { touched with links } := {
          indexed := fun l mem l' mem' => registers.consistent.indexed l (left ▸ mem) l' (left ▸ mem')
          addrs := fun index newer => registers.consistent.addrs index (Nat.le_trans later newer)
          routes := fun route mem => Nat.lt_of_lt_of_le (registers.consistent.routes route mem) later }
        rw [← goes] at own kept
        exact ⟨sn, last.host, failedTouches files own kept⟩
    · rw [registered] at registers
      obtain ⟨lease, same⟩ := registers.done bn rfl
      have same : last.host = touched.withTun bn.tun := same
      refine ⟨sn, touched, files, ready ▸ own, same, fun s started => ?_, fun s tun started isTun => ?_, ?_⟩
      · cases Except.ok.inj started
        exact lease
      · cases Except.ok.inj started
        obtain ⟨_, newest, known, isFor⟩ := registers.tun bn tun rfl isTun
        exact ⟨fun l mem => newest ▸ Nat.ne_of_lt (m.host.links.below l mem), known, isFor⟩
      · rw [same]
        cases isTun : bn.tun with
        | none => exact registers.consistent
        | some tun =>
          obtain ⟨unchanged, newest, _, _, _, isFor⟩ := registers.tun bn tun rfl isTun
          exact tunConsistent registers.consistent (unchanged ▸ newest) (by rw [isFor.route])

end Own

private def vtepPath : Path := [.rootDir, .normal (encode ['e', 'n', 'v'])]

private theorem vtepTmp : tmpFilePath vtepPath = .ok [.rootDir, .normal (encode ['.', 'e', 'n', 'v'])] := by
  have named : (fileName vtepPath).bind decode = some ['e', 'n', 'v'] := decodeEncode
  rw [tmpFilePath, named]
  rfl

private def vtepBackend : Json := .obj [("Type", .str "vxlan")]

private def vtepCalls (connect : Option String) (random : MacAddr6) : StartCalls Ipv4Network LeaseAttrs Unit where
  gateway := {
    routeList := .ok [{ linkIndex := 2, gw := some 0xC0A80001 }]
    linkByIndex := fun _ => .ok (some ⟨{ index := 2, name := "eth0", mtu := 1500 }, .other "device"⟩)
    addrList := fun _ => .ok [⟨.v4 (cidr 0xC0A80002 24), ()⟩] }
  connect
  stored := .ok { smallConfig with backend := some vtepBackend }
  registration := {
    fuel := 9
    stored := .ok { smallConfig with backend := some vtepBackend }
    attempts := fun _ => { read := ReadRpc.quiet 100 0, pick := 0, write := WriteRpc.quiet 1 0 }
    tun := { openTun := .ok "flannel0", linkByName := .ok (some 0), ephemeral := 40000 }
    vxlan := { random, link := { newMtu := id } } }

private def tunCalls : StartCalls Ipv4Network LeaseAttrs Unit := { vtepCalls none 1 with stored := .ok smallConfig }

private def ethernet : Link := ⟨{ index := 2, name := "eth0", mtu := 1500 }, .other "device"⟩

private theorem ethernetBelow : ∀ l ∈ [ethernet], l.asIndex < 3 := by decide

private def vtepRoute : Route := { linkIndex := 2, gw := some 0xC0A80001 }

private def vtepMachine : Machine Ipv4Network LeaseAttrs Unit where
  disk := fun _ => none
  host := {
    links := ⟨[ethernet], 3, ethernetBelow⟩
    addrs := fun index => if index = 2 then [⟨.v4 (cidr 0xC0A80002 24), ()⟩] else []
    routes := [vtepRoute]
    db := Etcd.empty }

private def vtepIface : ExternalInterface where
  iface := ⟨2, 1500, "eth0"⟩
  ifaceAddr := 0xC0A80002
  extAddr := some 0xC0A80002

private def vtepConfig : Config := { smallAccepted with backend := some vtepBackend, backendType := some "vxlan" }

private def flannelTun : Tun where
  name := "flannel0"
  linkIndex := 3
  addr := cidr 0x0A000004 32
  mtu := 1472
  route := { linkIndex := 3, dst := some (cidr 0x0A000000 28) }

private def tunNetwork : UdpNetwork where
  extIface := vtepIface
  subnetLease := {
    Lease.default 0 with
    enableIpv4 := true
    subnet := cidr 0x0A000004 30
    attrs := { publicIp := 0xC0A80002 }
    expiration := 86400 * SystemTime.nanos }
  port := 8285
  tunNet := cidr 0x0A000004 28
  tunFile := some flannelTun
  conn := some ⟨0xC0A80002, 8285⟩

private theorem vtepWrites {config : Config} {mtu : Nat} {disk : Disk} (net : config.network = some (cidr 0x0A000000 28))
    (ipv4 : config.enableIpv4 = true) :
    (writeSubnetFile .checked {} vtepPath config false (cidr 0x0A000004 30) mtu disk).1 = .ok () := by
  rw [writeSubnetFile, vtepTmp]
  simp only [envEntries, ipv4, net]
  rfl

private theorem tunStarted : ∃ after, main Codec.plain (fun x y => decide (x = y)) MacText.format .plain .checked
    ⟨vtepPath, false⟩ tunCalls vtepMachine = (.ok ⟨vtepIface, smallAccepted, .udp tunNetwork⟩, after) := by
  have ready : prepare .plain .checked ⟨vtepPath, false⟩ tunCalls vtepMachine.disk = .ok (vtepIface, smallAccepted, .udp) := rfl
  have registered : (registerNetwork Codec.plain (fun x y => decide (x = y)) MacText.format .checked tunCalls.registration
      vtepIface smallAccepted vtepMachine.host .udp).1 = .ok (.udp tunNetwork) := by decide
  exact ⟨_, mainStarts ready (Prod.ext registered rfl) rfl (Prod.ext (vtepWrites rfl rfl) rfl)⟩

private theorem vtepConsistent : Consistent vtepMachine.host where
  indexed := by
    intro l mem l' mem' _
    rw [List.mem_singleton.mp mem, List.mem_singleton.mp mem']
  addrs := fun index newer => if_neg (Nat.ne_of_gt newer)
  routes := by decide

private theorem vtepFresh {calls : StartCalls Ipv4Network LeaseAttrs Unit}
    (same : calls.registration.attempts = (vtepCalls none 1).registration.attempts) :
    ∀ left ∈ leftByOthers Codec.plain (calls.registration.attempts 0) vtepMachine.host.db,
      FreshGrant (calls.registration.attempts 0).write left := by
  intro left mem id ttl _
  rw [same] at mem
  have empty : left = Etcd.empty := by simpa [leftByOthers, vtepCalls, vtepMachine] using mem
  rw [empty]
  exact List.forall_mem_nil _

/- A vxlan start, and a UDP start that brings a device with an address and a route. -/
theorem vtepStartTouchesOwn :
    let start := main Codec.plain (fun x y => decide (x = y)) MacText.format .plain .checked ⟨vtepPath, false⟩
    (∃ sn touched, TouchesOwn Codec.plain .plain .checked ⟨vtepPath, false⟩ (vtepCalls none 1) vtepMachine sn touched
      (start (vtepCalls none 1) vtepMachine)) ∧
    ∃ s after, start tunCalls vtepMachine = (.ok s, after) ∧ after.host.links.links = [ethernet, flannelTun.link] ∧
      after.host.addrs 2 = [⟨.v4 (cidr 0xC0A80002 24), ()⟩] ∧ after.host.addrs 3 = [⟨.v4 (cidr 0x0A000004 32), ()⟩] ∧
      after.host.routes = [vtepRoute, flannelTun.route] := by
  refine ⟨startTouchesOwn vtepConsistent (vtepFresh rfl), ?_⟩
  obtain ⟨after, started⟩ := tunStarted
  obtain ⟨sn, touched, touches⟩ := @startTouchesOwn _ _ _ _ _ _ Codec.plain (fun x y => decide (x = y)) MacText.format .plain
    .checked ⟨vtepPath, false⟩ tunCalls vtepMachine vtepConsistent (vtepFresh rfl)
  rw [started] at touches
  have host : after.host = touched.withTun (some flannelTun) := touches.host
  have ready : ownDevice (prepare .plain .checked ⟨vtepPath, false⟩ tunCalls vtepMachine.disk) = none := rfl
  obtain ⟨links, addrs, routes⟩ := ownStore (ready ▸ touches.own)
  refine ⟨_, after, started, ?_, ?_, ?_, ?_⟩
  · rw [host]
    exact congrArg (· ++ [flannelTun.link]) links
  · rw [host, tunAddrs, addrs]
    rfl
  · rw [host, tunAddrs, addrs]
    rfl
  · rw [host]
    exact congrArg (· ++ [flannelTun.route]) routes

section Vtep
variable {K V A : Type} [DecidableEq K] [DecidableEq A] [Inhabited A] {codec : Codec K V}
variable {equal : Addr A → Addr A → Bool} {formatMac : MacAddr6 → String} {crates : TextCrates} {build : Build} {args : Args}
variable {r : Registration K V A} {extIface : ExternalInterface} {config : Config} {host after : Host K V A} {n : VxlanNetwork}
variable {l : Link} {bn : Network}

/-- The link that a registration of this configuration takes over. -/
structure TakesOver (extIface : ExternalInterface) (config : Config) (l : Link) (t : LinkTable) : Prop where
  named : ∀ vxlanConfig attrs, vxlanAttrs extIface config = .ok (vxlanConfig, attrs) → t.linkByName attrs.name = some l
  fits : ∀ vxlanConfig attrs mac mtu, vxlanAttrs extIface config = .ok (vxlanConfig, attrs) →
    vxlanLinksIncompat (attrs.link mac mtu) l = true

theorem registeredVxlan (registered : registerNetwork codec equal formatMac build r extIface config host .vxlan = (.ok bn, after)) :
    ∃ n, bn = .vxlan n ∧ vxlanRegisterNetwork codec equal formatMac build r.fuel r.stored r.attempts r.vxlan extIface config
      host = (.ok n, after) := by
  obtain ⟨made, same⟩ := Prod.mk.inj registered
  obtain ⟨n, new, is⟩ := mapOk.mp made
  exact ⟨n, is.symm, Prod.ext new same⟩

theorem registeredTakesOver (allowed : ∀ kind message, r.vxlan.link.add = some (.io kind message) → kind = .alreadyExists)
    (registered : vxlanRegisterNetwork codec equal formatMac build r.fuel r.stored r.attempts r.vxlan extIface config host =
      (.ok n, after)) : TakesOver extIface config n.device.link after.links := by
  obtain ⟨_, vxlanConfig, attrs, read, device⟩ := vxlanRegistered registered
  obtain ⟨mtu, _, ensured⟩ := deviceMade device
  constructor
  · intro vxlanConfig' attrs' read'
    cases Except.ok.inj (read.symm.trans read')
    exact ensuredNamed ensured
  · intro vxlanConfig' attrs' mac mtu' read'
    cases Except.ok.inj (read.symm.trans read')
    exact requestFits.trans (ensuredFits allowed ensured)

omit [DecidableEq K] [DecidableEq A] [Inhabited A] in
theorem newDeviceStays {vxlanConfig : VxlanConfig} {attrs : VxlanDeviceAttrs} (takes : TakesOver extIface config l host.links)
    (read : vxlanAttrs extIface config = .ok (vxlanConfig, attrs)) :
    (newDevice build r host vxlanConfig attrs).2 = host.links := by
  unfold newDevice VxlanDevice.new
  dsimp only
  split
  · rfl
  · exact (ensuredKept (takes.named _ _ read) (takes.fits _ _ _ _ read)).1

/- Whatever fails in it, a registration leaves the link that it takes over. -/
theorem linkStays (takes : TakesOver extIface config l host.links) :
    (registerNetwork codec equal formatMac build r extIface config host .vxlan).2.links = host.links := by
  change (vxlanRegisterNetwork codec equal formatMac build r.fuel r.stored r.attempts r.vxlan extIface config host).2.links = _
  have leaves := @vxlanLeaves _ _ _ _ _ _ codec equal formatMac build r extIface config host
  revert leaves
  generalize (vxlanRegisterNetwork codec equal formatMac build r.fuel r.stored r.attempts r.vxlan extIface config host).2 = after
  intro leaves
  cases leaves with
  | nothing => rfl
  | device read new => exact (congrArg Prod.snd new).symm.trans (newDeviceStays takes read)
  | lease read new => exact (congrArg Prod.snd new).symm.trans (newDeviceStays takes read)
  | addrs read new => exact (congrArg Prod.snd new).symm.trans (newDeviceStays takes read)

theorem linkTaken (takes : TakesOver extIface config l host.links)
    (registered : registerNetwork codec equal formatMac build r extIface config host .vxlan = (.ok bn, after)) :
    ∃ n vxlanConfig attrs mac, bn = .vxlan n ∧ n.device.link = l ∧ vxlanAttrs extIface config = .ok (vxlanConfig, attrs) ∧
      l.linkAttrs.hardwareAddr = some mac ∧ acquireLease codec build r.fuel r.stored
        (vxlanLeaseAttrs formatMac extIface vxlanConfig.vni mac) r.attempts host.db = (.ok n.subnetLease, after.db) := by
  obtain ⟨n, rfl, new⟩ := registeredVxlan registered
  obtain ⟨_, vxlanConfig, attrs, read, device⟩ := vxlanRegistered new
  obtain ⟨mtu, _, ensured⟩ := deviceMade device
  have isSame := (ensuredKept (takes.named _ _ read) (takes.fits _ _ _ _ read)).2 _ (congrArg Prod.fst ensured)
  obtain ⟨vxlanConfig', attrs', mac, read', hardware, acquired⟩ := vxlanAcquired new
  exact ⟨n, vxlanConfig', attrs', mac, rfl, isSame, read', isSame ▸ hardware, acquired⟩

end Vtep

section Restart
variable {A : Type} [DecidableEq A] [Inhabited A] {equal : Addr A → Addr A → Bool} {formatMac : MacAddr6 → String}
variable {crates : TextCrates} {build : Build} {args : Args} {m started after : Machine Ipv4Network LeaseAttrs A}
variable {calls : StartCalls Ipv4Network LeaseAttrs A} {s s' : Started} {n : VxlanNetwork}

/-- A later start that comes to its registration has the interface and the backend settings of an earlier one. -/
def SettingsKept (crates : TextCrates) (build : Build) (args : Args) (s : Started) (m : Machine Ipv4Network LeaseAttrs A)
    (calls : StartCalls Ipv4Network LeaseAttrs A) : Prop :=
  ∀ extIface config backend, prepare crates build args calls m.disk = .ok (extIface, config, backend) →
    extIface = s.extIface ∧ config.backend = s.config.backend

omit [DecidableEq A] [Inhabited A] in
/- Its own backend is the one of the earlier start, and so is what its device is made of. -/
theorem settingsSame {extIface : ExternalInterface} {config : Config} {backend : Backend}
    (kept : SettingsKept crates build args s m calls)
    (ready : prepare crates build args calls m.disk = .ok (extIface, config, backend))
    (got : getBackend s.extIface (parseBackendType s.config.backend) = .ok .vxlan) :
    extIface = s.extIface ∧ vxlanAttrs s.extIface config = vxlanAttrs s.extIface s.config ∧ backend = .vxlan := by
  obtain ⟨rfl, same⟩ := kept extIface config backend ready
  refine ⟨rfl, by rw [vxlanAttrs, same, vxlanAttrs], ?_⟩
  have mine := (prepared ready).2.2
  rw [same] at mine
  exact Except.ok.inj (mine.symm.trans got)

omit [DecidableEq A] [Inhabited A] in
theorem takesSame {config : Config} {t : LinkTable} (same : vxlanAttrs s.extIface config = vxlanAttrs s.extIface s.config)
    (takes : TakesOver s.extIface s.config l t) : TakesOver s.extIface config l t :=
  ⟨fun _ _ read => takes.named _ _ (same ▸ read), fun _ _ _ _ read => takes.fits _ _ _ _ (same ▸ read)⟩

theorem bootLinks (takes : TakesOver s.extIface s.config l m.host.links) (kept : SettingsKept crates build args s m calls)
    (got : getBackend s.extIface (parseBackendType s.config.backend) = .ok .vxlan) :
    (boot equal formatMac crates build args m calls).host.links = m.host.links := by
  have links : ∀ result last, main Codec.plain equal formatMac crates build args calls m = (result, last) →
      last.host.links = m.host.links ∧ ∀ s', result = .ok s' → s'.network.tun = none := by
    intro result last ended
    cases ready : prepare crates build args calls m.disk with
    | error stop =>
      rw [main, ready] at ended
      cases ended
      exact ⟨rfl, fun _ ok => by simp at ok⟩
    | ok prepared' =>
      obtain ⟨extIface, config, backend⟩ := prepared'
      obtain ⟨rfl, same, rfl⟩ := settingsSame kept ready got
      have stays := @linkStays _ _ _ _ _ _ Codec.plain equal formatMac build calls.registration s.extIface config m.host l
        (takesSame same takes)
      rcases mainEnds ready ended with ⟨stop, rfl, registered⟩ | ⟨bn, host, stop, rfl, registered, goes⟩ | ⟨bn, rfl, registered⟩
      · rw [registered] at stays
        exact ⟨stays, fun _ ok => by simp at ok⟩
      · obtain ⟨n, rfl, _⟩ := registeredVxlan registered
        rw [registered] at stays
        exact ⟨goes ▸ stays, fun _ ok => by simp at ok⟩
      · obtain ⟨n, rfl, _⟩ := registeredVxlan registered
        rw [registered] at stays
        refine ⟨stays, fun s' ok => ?_⟩
        cases Except.ok.inj ok
        rfl
  unfold boot
  split
  · rename_i s' last ended
    obtain ⟨same, noTun⟩ := links _ _ ended
    rw [Network.released, noTun s' rfl]
    exact same
  · rename_i ended
    exact (links _ _ ended).1

theorem restartTakes (takes : TakesOver s.extIface s.config l m.host.links) (kept : SettingsKept crates build args s m calls)
    (got : getBackend s.extIface (parseBackendType s.config.backend) = .ok .vxlan)
    (started : main Codec.plain equal formatMac crates build args calls m = (.ok s', after)) :
    (∃ n, s'.network = .vxlan n ∧ n.device.link = l) ∧ ∃ vxlanConfig attrs mac id,
      vxlanAttrs s.extIface s.config = .ok (vxlanConfig, attrs) ∧ l.linkAttrs.hardwareAddr = some mac ∧
        after.host.db.get s'.network.lease.subnet =
          some ⟨s'.network.lease.subnet, vxlanLeaseAttrs formatMac s.extIface vxlanConfig.vni mac, id⟩ := by
  obtain ⟨backend, _, ready, registered, _, _⟩ := mainStarted started
  obtain ⟨isSame, same, rfl⟩ := settingsSame kept ready got
  rw [isSame] at registered
  obtain ⟨n, vxlanConfig, attrs, mac, isVxlan, isLink, read, hardware, acquired⟩ := linkTaken (takesSame same takes) registered
  obtain ⟨_, _, id, _, _, _, entry⟩ := acquiredChoice acquired
  rw [isVxlan]
  exact ⟨⟨n, rfl, isLink⟩, vxlanConfig, attrs, mac, id, same ▸ read, hardware, entry⟩

theorem vxlanStarted (first : main Codec.plain equal formatMac crates build args calls m = (.ok s, started))
    (isVxlan : s.network = .vxlan n) : getBackend s.extIface (parseBackendType s.config.backend) = .ok .vxlan ∧
      vxlanRegisterNetwork Codec.plain equal formatMac build calls.registration.fuel calls.registration.stored
        calls.registration.attempts calls.registration.vxlan s.extIface s.config m.host = (.ok n, started.host) := by
  obtain ⟨backend, _, ready, registered, _, _⟩ := mainStarted first
  obtain ⟨_, _, got⟩ := prepared ready
  rw [isVxlan] at registered
  cases backend with
  | vxlan =>
    obtain ⟨_, same, new⟩ := registeredVxlan registered
    cases Network.vxlan.inj same
    exact ⟨got, new⟩
  | udp =>
    obtain ⟨_, _, other, _⟩ := registeredUdp.mp registered
    cases other
  | hostGw =>
    obtain ⟨_, _, other⟩ := mapOk.mp (Prod.mk.inj registered).1
    cases other

/- Restarts leave the node its link, and enter the MAC that the others have learnt. -/
theorem restartsKeepVtep {starts : List (StartCalls Ipv4Network LeaseAttrs A)}
    (first : main Codec.plain equal formatMac crates build args calls m = (.ok s, started)) (isVxlan : s.network = .vxlan n)
    (allowed : ∀ kind message, calls.registration.vxlan.link.add = some (.io kind message) → kind = .alreadyExists)
    (kept : Along (boot equal formatMac crates build args) (SettingsKept crates build args s) started starts) :
    (run (boot equal formatMac crates build args) started starts).host.links = started.host.links ∧
      ∃ attrs id, started.host.db.get s.network.lease.subnet = some ⟨s.network.lease.subnet, attrs, id⟩ ∧
        Along (boot equal formatMac crates build args) (fun m calls => ∀ s' after,
          main Codec.plain equal formatMac crates build args calls m = (.ok s', after) →
            (∃ n', s'.network = .vxlan n' ∧ n'.device.link = n.device.link) ∧ ∃ id,
              after.host.db.get s'.network.lease.subnet = some ⟨s'.network.lease.subnet, attrs, id⟩) started starts := by
  obtain ⟨got, registered⟩ := vxlanStarted first isVxlan
  have takes : ∀ m : Machine Ipv4Network LeaseAttrs A, m.host.links = started.host.links →
      TakesOver s.extIface s.config n.device.link m.host.links := by
    intro m same
    rw [same]
    exact registeredTakesOver allowed registered
  have stays : ∀ (m : Machine Ipv4Network LeaseAttrs A) calls, m.host.links = started.host.links →
      SettingsKept crates build args s m calls →
        (boot equal formatMac crates build args m calls).host.links = started.host.links :=
    fun m calls same kept => (bootLinks (takes m same) kept got).trans same
  obtain ⟨vxlanConfig, attrs, mac, read, hardware, acquired⟩ := vxlanAcquired registered
  obtain ⟨_, _, id, _, _, _, entry⟩ := acquiredChoice acquired
  refine ⟨@runInvariant _ _ _ (SettingsKept crates build args s)
      (fun m : Machine Ipv4Network LeaseAttrs A => m.host.links = started.host.links) _ _ stays rfl kept,
    vxlanLeaseAttrs formatMac s.extIface vxlanConfig.vni mac, id, isVxlan ▸ entry, ?_⟩
  refine @alongInvariant _ _ _ (SettingsKept crates build args s) _
    (fun m : Machine Ipv4Network LeaseAttrs A => m.host.links = started.host.links) _ _ stays
    (fun m calls same kept s' after again => ?_) rfl kept
  obtain ⟨device, vxlanConfig', attrs', mac', id', read', hardware', entry'⟩ := restartTakes (takes m same) kept got again
  cases Except.ok.inj (read.symm.trans read')
  cases Option.some.inj (hardware.symm.trans hardware')
  exact ⟨device, id', entry'⟩

end Restart

private def vtepNetwork : VxlanNetwork where
  subnetLease := {
    Lease.default 0 with
    enableIpv4 := true
    subnet := cidr 0x0A000004 30
    attrs := vxlanLeaseAttrs MacText.format vtepIface 1 0x020000000001
    expiration := 86400 * SystemTime.nanos }
  extIface := vtepIface
  device := {
    link := {
      linkAttrs := { index := 3, name := "flannel.1", mtu := 1450, hardwareAddr := some 0x020000000001 }
      linkKind := .vxlan { vxlanId := 1, vtepDevIndex := 2, srcAddr := some (.v4 0xC0A80002) } }
    directRouting := false }
  mtu := 1500

private theorem vtepStarts {m : Machine Ipv4Network LeaseAttrs Unit} {env : EnvText.Env} {prev : Option Ipv4Network} {random : MacAddr6}
    {host : Host Ipv4Network LeaseAttrs Unit} {n : VxlanNetwork} (read : readFromSubnetEnv m.disk vtepPath = .ok env)
    (parsed : prevSubnet .plain env = .ok prev) (subnet : n.subnetLease.subnet = cidr 0x0A000004 30)
    (registered : registerNetwork Codec.plain (fun x y => decide (x = y)) MacText.format .checked
      (vtepCalls none random).registration vtepIface vtepConfig m.host .vxlan = (.ok (.vxlan n), host)) :
    ∃ disk, main Codec.plain (fun x y => decide (x = y)) MacText.format .plain .checked ⟨vtepPath, false⟩
      (vtepCalls none random) m = (.ok ⟨vtepIface, vtepConfig, .vxlan n⟩, ⟨disk, host⟩) := by
  have ready : prepare .plain .checked ⟨vtepPath, false⟩ (vtepCalls none random) m.disk = .ok (vtepIface, vtepConfig, .vxlan) := by
    have looked : lookupExtIface (vtepCalls none random).gateway = .ok vtepIface := rfl
    simp only [prepare, looked, read, parsed, bind, Except.bind]
    rfl
  have named : (Network.vxlan n).lease.subnet = cidr 0x0A000004 30 := subnet
  refine ⟨_, mainStarts ready registered rfl (Prod.ext ?_ rfl)⟩
  rw [named]
  exact vtepWrites rfl rfl

private def vtepRegisters (random : MacAddr6) (host : Host Ipv4Network LeaseAttrs Unit) :
    Res Network × Host Ipv4Network LeaseAttrs Unit :=
  registerNetwork Codec.plain (fun x y => decide (x = y)) MacText.format .checked (vtepCalls none random).registration vtepIface
    vtepConfig host .vxlan

private theorem vtepSettings {m : Machine Ipv4Network LeaseAttrs Unit} {connect : Option String} {random : MacAddr6} :
    SettingsKept .plain .checked ⟨vtepPath, false⟩ ⟨vtepIface, vtepConfig, .vxlan vtepNetwork⟩ m (vtepCalls connect random) := by
  intro extIface config backend ready
  obtain ⟨looked, accepted, _⟩ := prepared ready
  have same : getNetworkConfig .checked (vtepCalls connect random).stored = .ok vtepConfig := rfl
  cases Except.ok.inj (same.symm.trans accepted)
  cases looked
  exact ⟨rfl, rfl⟩

private theorem vtepUnconnected {m : Machine Ipv4Network LeaseAttrs Unit} {message : String} {random : MacAddr6} : ∃ stop,
    main Codec.plain (fun x y => decide (x = y)) MacText.format .plain .checked ⟨vtepPath, false⟩
      (vtepCalls (some message) random) m = (.error stop, m) := by
  unfold main
  split
  · exact ⟨_, rfl⟩
  · rename_i ready
    simp only [prepare, bindOk] at ready
    obtain ⟨_, _, _, _, _, _, _, connected, _⟩ := ready
    cases connected

/- Etcd is not reached by the second start, and the third has other random bytes. -/
theorem thirdStartSameMac : ∃ m : Machine Ipv4Network LeaseAttrs Unit,
    let start := main Codec.plain (fun x y => decide (x = y)) MacText.format .plain .checked ⟨vtepPath, false⟩
    let next := boot (fun x y => decide (x = y)) MacText.format .plain .checked ⟨vtepPath, false⟩
    m.host.links.linkByName "flannel.1" = some vtepNetwork.device.link ∧
      (run next m [vtepCalls (some "connection refused") 2, vtepCalls none 3]).host.links = m.host.links ∧
      ∃ s after id, start (vtepCalls none 3) (next m (vtepCalls (some "connection refused") 2)) = (.ok s, after) ∧
        (∃ n, s.network = .vxlan n ∧ n.device.link = vtepNetwork.device.link) ∧
        after.host.db.get (cidr 0x0A000004 30) =
          some ⟨cidr 0x0A000004 30, vxlanLeaseAttrs MacText.format vtepIface 1 0x020000000001, id⟩ := by
  have registered : (vtepRegisters 1 vtepMachine.host).1 = .ok (.vxlan vtepNetwork) := by decide
  have linked : (vtepRegisters 1 vtepMachine.host).2.links.linkByName "flannel.1" = some vtepNetwork.device.link := by decide
  have entered : (vtepRegisters 1 vtepMachine.host).2.db.get (cidr 0x0A000004 30) =
      some ⟨cidr 0x0A000004 30, vxlanLeaseAttrs MacText.format vtepIface 1 0x020000000001, 1⟩ := by decide
  obtain ⟨disk, started⟩ := @vtepStarts vtepMachine _ none 1 _ vtepNetwork rfl rfl rfl (Prod.ext registered rfl)
  obtain ⟨env, _, _, read, _, _, restores⟩ := startedFile (by decide) (by decide) started
  obtain ⟨prev, parsed, _⟩ := restores.subnet
  let m : Machine Ipv4Network LeaseAttrs Unit := ⟨disk, (vtepRegisters 1 vtepMachine.host).2⟩
  have unchanged : boot (fun x y => decide (x = y)) MacText.format .plain .checked ⟨vtepPath, false⟩ m
      (vtepCalls (some "connection refused") 2) = m := by
    obtain ⟨stop, failed⟩ := @vtepUnconnected m "connection refused" 2
    rw [boot, failed]
  have again : (vtepRegisters 3 (vtepRegisters 1 vtepMachine.host).2).1 = .ok (.vxlan { vtepNetwork with
      subnetLease := { vtepNetwork.subnetLease with expiration := 100 * SystemTime.nanos } }) := by decide
  obtain ⟨_, third⟩ := @vtepStarts m env (some prev) 3 _ _ read parsed rfl (Prod.ext again rfl)
  have added : ∀ kind message, (vtepCalls none 1).registration.vxlan.link.add = some (.io kind message) →
      kind = .alreadyExists := by
    intro kind message failed
    cases failed
  obtain ⟨links, attrs, id, entry, along⟩ := @restartsKeepVtep Unit _ _ (fun x y => decide (x = y)) MacText.format .plain
    .checked ⟨vtepPath, false⟩ vtepMachine m (vtepCalls none 1) _ vtepNetwork
    [vtepCalls (some "connection refused") 2, vtepCalls none 3] started rfl added ⟨vtepSettings, vtepSettings, trivial⟩
  obtain ⟨device, id', kept⟩ := along.2.1 _ _ (unchanged.symm ▸ third)
  have same : attrs = vxlanLeaseAttrs MacText.format vtepIface 1 0x020000000001 :=
    congrArg KeyValue.value (Option.some.inj (entry.symm.trans entered))
  exact ⟨m, linked, links, _, _, id', unchanged.symm ▸ third, device, same ▸ kept⟩

end FlannelNg
