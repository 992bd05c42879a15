import FlannelNg.Links

/-! The address of a link in the overlay network. The addresses of that network which are
not the wanted one are deleted, and the wanted one is added unless it was listed. -/
namespace FlannelNg
open Cidr Outcome

section OverlayAddr
variable {A : Type} [DecidableEq A]

/- Which netlink calls fail, with the error. -/
structure AddrCalls (A : Type) where
  list : Option String := none
  del : Addr A → Option String := fun _ => none
  add : Option String := none

def addrDel (addrs : List (Addr A)) (addr : Addr A) : Res (List (Addr A)) :=
  if addr ∈ addrs then .ok (addrs.erase addr) else .error (.bail "Cannot assign requested address")

def addrAdd (addrs : List (Addr A)) (addr : Addr A) : Res (List (Addr A)) :=
  if addrs.any (fun old => old.ipnet = addr.ipnet) then .error (.bail "File exists") else .ok (addrs ++ [addr])

/- `equal` is `==` of two addresses. -/
variable (equal : Addr A → Addr A → Bool) (calls : AddrCalls A) (addr : Addr A) (ipn : Ipv4Network)

/- The loop over the listed addresses: whether the wanted one is among them, and what the link has then. -/
def deleteOthers : (existingAddrs : List (Addr A)) → (hasAddr : Bool) → List (Addr A) → Res Bool × List (Addr A)
  | [], hasAddr, addrs => (.ok hasAddr, addrs)
  | existing :: rest, hasAddr, addrs =>
    if equal existing addr then deleteOthers rest true addrs
    else match existing.ipnet.ip with
    | .v6 _ => deleteOthers rest hasAddr addrs
    | .v4 ip =>
      if ipn.contains ip then
        match context "addr del failed" (answer (calls.del existing) (addrDel addrs existing)) with
        | .error stop => (.error stop, addrs)
        | .ok addrs => deleteOthers rest hasAddr addrs
      else deleteOthers rest hasAddr addrs

def ensureV4AddrOnLink [Inhabited A] (ip ipn : Ipv4Network) (addrs : List (Addr A)) : Res Unit × List (Addr A) :=
  let addr : Addr A := ⟨.v4 ip, default⟩
  match context "addr list failed" (answer calls.list (.ok addrs)) with
  | .error stop => (.error stop, addrs)
  | .ok existingAddrs =>
    match deleteOthers equal calls addr ipn existingAddrs false addrs with
    | (.error stop, addrs) => (.error stop, addrs)
    | (.ok true, addrs) => (.ok (), addrs)
    | (.ok false, addrs) =>
      match context "addr add failed" (answer calls.add (addrAdd addrs addr)) with
      | .error stop => (.error stop, addrs)
      | .ok addrs => (.ok (), addrs)

/- An IPv4 address of the network. -/
def inside (ipn : Ipv4Network) (addr : Addr A) : Bool :=
  match addr.ipnet.ip with
  | .v4 ip => ipn.contains ip
  | .v6 _ => false

/- What the loop leaves. -/
def kept (existing : Addr A) : Bool := equal existing addr || !inside ipn existing

variable {equal} {calls} {addr} {ipn} {addrs after pre existingAddrs : List (Addr A)} {has hasAddr : Bool}

/- The listed addresses are those of the link, and the ones in front of the loop are left. -/
theorem deletedOthers (left : ∀ a ∈ pre, kept equal addr ipn a = true)
    (done : deleteOthers equal calls addr ipn existingAddrs hasAddr (pre ++ existingAddrs) = (.ok has, after)) :
    after = pre ++ existingAddrs.filter (kept equal addr ipn) ∧ has = (hasAddr || existingAddrs.any (equal · addr)) := by
  induction existingAddrs generalizing pre hasAddr with
  | nil =>
    obtain ⟨same, unchanged⟩ := Prod.mk.inj done
    rw [← unchanged, ← Except.ok.inj same]
    simp
  | cons existing rest ih =>
    have next : kept equal addr ipn existing = true → ∀ hasAddr',
        deleteOthers equal calls addr ipn rest hasAddr' (pre ++ existing :: rest) = (.ok has, after) →
        after = pre ++ (existing :: rest).filter (kept equal addr ipn) ∧ has = (hasAddr' || rest.any (equal · addr)) := by
      intro stays hasAddr' done
      rw [List.append_cons] at done
      obtain ⟨same, found⟩ := ih (by
        rw [List.forall_mem_append, List.forall_mem_singleton]
        exact ⟨left, stays⟩) done
      rw [same, List.filter_cons_of_pos stays, List.append_assoc]
      exact ⟨rfl, found⟩
    unfold deleteOthers at done
    cases wanted : equal existing addr with
    | true =>
      rw [if_pos wanted] at done
      obtain ⟨same, found⟩ := next (by simp [kept, wanted]) true done
      exact ⟨same, by simp [found, wanted]⟩
    | false =>
      rw [if_neg (by simp [wanted])] at done
      cases address : existing.ipnet.ip with
      | v6 a =>
        rw [address] at done
        obtain ⟨same, found⟩ := next (by simp [kept, inside, address]) hasAddr done
        exact ⟨same, by simp [found, wanted]⟩
      | v4 a =>
        simp only [address] at done
        cases contained : ipn.contains a with
        | false =>
          rw [if_neg (by simp [contained])] at done
          obtain ⟨same, found⟩ := next (by simp [kept, inside, address, contained]) hasAddr done
          exact ⟨same, by simp [found, wanted]⟩
        | true =>
          have goes : kept equal addr ipn existing = false := by simp [kept, inside, address, contained, wanted]
          have absent : existing ∉ pre := fun mem => by
            rw [left existing mem] at goes
            contradiction
          rw [if_pos contained] at done
          split at done
          · simp at done
          · rename_i deleted
            have same := (answerOk.mp (contextOk.mp deleted)).2
            rw [addrDel, if_pos (by simp), List.erase_append_right _ absent, List.erase_cons_head] at same
            cases Except.ok.inj same
            obtain ⟨same, found⟩ := ih left done
            rw [List.filter_cons_of_neg (by simp [goes])]
            exact ⟨same, by simp [found, wanted]⟩

omit [DecidableEq A] in
theorem addedAddr (ok : addrAdd addrs addr = .ok after) : after = addrs ++ [addr] := by
  unfold addrAdd at ok
  split at ok
  · contradiction
  · exact (Except.ok.inj ok).symm

variable [Inhabited A] {ip : Ipv4Network}

theorem ensuredAddrs (done : ensureV4AddrOnLink equal calls ip ipn addrs = (.ok (), after)) :
    after = addrs.filter (kept equal ⟨.v4 ip, default⟩ ipn) ++
      if addrs.any (equal · ⟨.v4 ip, default⟩) then [] else [⟨.v4 ip, default⟩] := by
  unfold ensureV4AddrOnLink at done
  split at done
  · simp at done
  · rename_i listed
    obtain ⟨_, same⟩ := answerOk.mp (contextOk.mp listed)
    cases Except.ok.inj same
    dsimp only at done
    cases looped : deleteOthers equal calls ⟨.v4 ip, default⟩ ipn addrs false addrs with
    | mk ended left =>
      rw [looped] at done
      cases ended with
      | error stop => simp at done
      | ok has =>
        obtain ⟨same, found⟩ := @deletedOthers A _ equal calls ⟨.v4 ip, default⟩ ipn left [] addrs has false (by simp) looped
        rw [List.nil_append] at same
        rw [Bool.false_or] at found
        rw [← found, ← same]
        cases has with
        | true => simpa using (Prod.mk.inj done).2.symm
        | false =>
          dsimp only at done
          split at done
          · simp at done
          · rename_i added
            rw [← (Prod.mk.inj done).2, addedAddr (answerOk.mp (contextOk.mp added)).2]
            rfl

/-- The addresses outside the network are as before, and in it there is the wanted one alone. -/
structure OneOverlay (ip ipn : Ipv4Network) (before after : List (Addr A)) : Prop where
  others : after.filter (fun a => !inside ipn a) = before.filter (fun a => !inside ipn a)
  addresses : ∀ net, (∃ a ∈ after, a.ipnet = .v4 net) ↔
    (∃ a ∈ before, a.ipnet = .v4 net ∧ ipn.contains net.ip = false) ∨ net = ip
  single : (before.map Addr.ipnet).Nodup → (after.map Addr.ipnet).Nodup

theorem ensuredMem {a : Addr A} (done : ensureV4AddrOnLink equal calls ip ipn addrs = (.ok (), after)) :
    a ∈ after ↔ (a ∈ addrs ∧ kept equal ⟨.v4 ip, default⟩ ipn a = true) ∨
      (addrs.any (equal · ⟨.v4 ip, default⟩) = false ∧ a = ⟨.v4 ip, default⟩) := by
  rw [ensuredAddrs done, List.mem_append, List.mem_filter]
  cases addrs.any (equal · ⟨.v4 ip, default⟩) with
  | true => simp
  | false => simp

omit [DecidableEq A] [Inhabited A] in
theorem keptOutside {a : Addr A} (none_ : addrs.any (equal · addr) = false)
    (stays : a ∈ addrs.filter (kept equal addr ipn)) : inside ipn a = false := by
  obtain ⟨mem, stays⟩ := List.mem_filter.mp stays
  have differs : equal a addr = false := by simpa using List.any_eq_false.mp none_ a mem
  simpa only [kept, differs, Bool.false_or, Bool.not_eq_true'] using stays

/- Equal addresses have one network, and the wanted one is of the overlay. -/
variable (lawful : ∀ x y : Addr A, equal x y = true → x.ipnet = y.ipnet) (inNet : ipn.contains ip.ip = true)
include lawful inNet

omit lawful [DecidableEq A] in
theorem insideWanted : inside ipn (⟨.v4 ip, default⟩ : Addr A) = true := by
  simp only [inside, IpNetwork.ip, inNet]

omit lawful in
theorem othersStay (done : ensureV4AddrOnLink equal calls ip ipn addrs = (.ok (), after)) :
    after.filter (fun a => !inside ipn a) = addrs.filter (fun a => !inside ipn a) := by
  have outside : ∀ a : Addr A, (!inside ipn a && kept equal ⟨.v4 ip, default⟩ ipn a) = !inside ipn a := by
    intro a
    cases within : inside ipn a with
    | true => rfl
    | false => simp [kept, within]
  have wanted : (if addrs.any (equal · ⟨.v4 ip, default⟩) then [] else [(⟨.v4 ip, default⟩ : Addr A)]).filter
      (fun a => !inside ipn a) = [] := by
    split
    · rfl
    · simp [insideWanted inNet]
  rw [ensuredAddrs done, List.filter_append, List.filter_filter, wanted, List.append_nil]
  simp only [outside]

omit inNet in
theorem addressLeft {net : Ipv4Network} (done : ensureV4AddrOnLink equal calls ip ipn addrs = (.ok (), after)) :
    (∃ a ∈ after, a.ipnet = .v4 net) ↔
      (∃ a ∈ addrs, a.ipnet = .v4 net ∧ ipn.contains net.ip = false) ∨ net = ip := by
  constructor
  · rintro ⟨a, mem, is⟩
    rcases (ensuredMem done).mp mem with ⟨listed, stays⟩ | ⟨_, wanted⟩
    · cases same : equal a ⟨.v4 ip, default⟩ with
      | true => exact .inr (IpNetwork.v4.inj (is.symm.trans (lawful a _ same)))
      | false =>
        simp only [kept, same, inside, is, IpNetwork.ip, Bool.false_or, Bool.not_eq_true'] at stays
        exact .inl ⟨a, listed, is, stays⟩
    · rw [wanted] at is
      exact .inr (IpNetwork.v4.inj is).symm
  · rintro (⟨a, listed, is, outside⟩ | same)
    · refine ⟨a, (ensuredMem done).mpr (.inl ⟨listed, ?_⟩), is⟩
      simp [kept, inside, is, IpNetwork.ip, outside]
    · cases found : addrs.any (equal · ⟨.v4 ip, default⟩) with
      | false => exact ⟨_, (ensuredMem done).mpr (.inr ⟨found, rfl⟩), by rw [same]⟩
      | true =>
        obtain ⟨a, listed, wanted⟩ := List.any_eq_true.mp found
        have stays : kept equal ⟨.v4 ip, default⟩ ipn a = true := by simp [kept, wanted]
        exact ⟨a, (ensuredMem done).mpr (.inl ⟨listed, stays⟩), by rw [lawful a _ wanted, same]⟩

omit lawful in
theorem addressOnce (done : ensureV4AddrOnLink equal calls ip ipn addrs = (.ok (), after))
    (distinct : (addrs.map Addr.ipnet).Nodup) : (after.map Addr.ipnet).Nodup := by
  have rest : ((addrs.filter (kept equal ⟨.v4 ip, default⟩ ipn)).map Addr.ipnet).Nodup :=
    distinct.sublist (List.filter_sublist.map _)
  rw [ensuredAddrs done, List.map_append]
  cases found : addrs.any (equal · ⟨.v4 ip, default⟩) with
  | true => simpa using rest
  | false =>
    refine List.nodup_append.mpr ⟨rest, List.nodup_singleton _, ?_⟩
    intro net mem net' wanted
    obtain ⟨a, stays, rfl⟩ := List.mem_map.mp mem
    have away : inside ipn a = false := keptOutside found stays
    have isWanted : net' = .v4 ip := by simpa using wanted
    rw [isWanted]
    intro same
    simp only [inside, same, IpNetwork.ip, inNet] at away
    contradiction

omit lawful in
/- The first call leaves nothing to delete. -/
theorem ensuredAgain {calls' : AddrCalls A} {again : List (Addr A)}
    (done : ensureV4AddrOnLink equal calls ip ipn addrs = (.ok (), after))
    (twice : ensureV4AddrOnLink equal calls' ip ipn after = (.ok (), again)) : again = after := by
  have first := ensuredAddrs done
  rw [ensuredAddrs twice]
  cases found : addrs.any (equal · ⟨.v4 ip, default⟩) with
  | true =>
    rw [found, if_pos rfl, List.append_nil] at first
    obtain ⟨a, listed, wanted⟩ := List.any_eq_true.mp found
    have still : after.any (equal · ⟨.v4 ip, default⟩) = true := by
      refine List.any_eq_true.mpr ⟨a, (ensuredMem done).mpr (.inl ⟨listed, ?_⟩), wanted⟩
      simp [kept, wanted]
    rw [still, if_pos rfl, List.append_nil, first, List.filter_filter]
    simp only [Bool.and_self]
  | false =>
    rw [found, if_neg (by simp)] at first
    have noneLeft : (addrs.filter (kept equal ⟨.v4 ip, default⟩ ipn)).any (equal · ⟨.v4 ip, default⟩) = false :=
      List.any_eq_false.mpr fun a mem => List.any_eq_false.mp found a (List.mem_filter.mp mem).1
    rw [first, List.filter_append, List.filter_filter, List.any_append, noneLeft]
    simp only [Bool.and_self, Bool.false_or, List.any_cons, List.any_nil, Bool.or_false]
    cases reflexive : equal ⟨.v4 ip, default⟩ (⟨.v4 ip, default⟩ : Addr A) with
    | true =>
      have stays : kept equal ⟨.v4 ip, default⟩ ipn (⟨.v4 ip, default⟩ : Addr A) = true := by simp [kept, reflexive]
      simp [stays]
    | false =>
      have goes : kept equal ⟨.v4 ip, default⟩ ipn (⟨.v4 ip, default⟩ : Addr A) = false := by
        simp [kept, reflexive, insideWanted inNet]
      simp [goes]

theorem convergesToOne (done : ensureV4AddrOnLink equal calls ip ipn addrs = (.ok (), after)) :
    OneOverlay ip ipn addrs after ∧ ∀ (calls' : AddrCalls A) again,
      ensureV4AddrOnLink equal calls' ip ipn after = (.ok (), again) → again = after :=
  ⟨⟨othersStay inNet done, fun _ => addressLeft lawful done, addressOnce inNet done⟩,
    fun _ _ twice => ensuredAgain inNet done twice⟩

end OverlayAddr

/- The wanted address under another label, an old one and one of another network. -/
private def labelledAddrs : List (Addr String) :=
  [⟨.v4 (cidr 0x0A000400 32), "flannel.1"⟩, ⟨.v4 (cidr 0x0A000705 24), ""⟩, ⟨.v4 (cidr 0xC0A80001 24), "lan"⟩]

private def oneLeft : List (Addr String) := [⟨.v4 (cidr 0xC0A80001 24), "lan"⟩, ⟨.v4 (cidr 0x0A000400 32), ""⟩]

theorem labelledReplaced : OneOverlay (cidr 0x0A000400 32) (cidr 0x0A000000 16) labelledAddrs oneLeft ∧
    ensureV4AddrOnLink (fun x y => decide (x = y)) {} (cidr 0x0A000400 32) (cidr 0x0A000000 16) oneLeft =
      (.ok (), oneLeft) :=
  ⟨(@convergesToOne String _ (fun x y => decide (x = y)) {} (cidr 0x0A000000 16) labelledAddrs oneLeft _
    (cidr 0x0A000400 32) (fun _ _ same => congrArg Addr.ipnet (of_decide_eq_true same)) rfl rfl).1, rfl⟩

end FlannelNg
