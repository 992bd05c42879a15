import FlannelNg.Links

/-! The link of the vxlan device. A link of its name may be there already; it is taken
over when it is compatible with the wanted one and is otherwise made anew. -/
namespace FlannelNg
open Outcome

/- `std::io::ErrorKind` -/
inductive ErrorKind where
  | alreadyExists
  | other (name : String)
  deriving DecidableEq, Repr

/-- An error of a netlink call, which may be an I/O error of the system. -/
inductive CallError where
  | io (kind : ErrorKind) (message : String)
  | other (message : String)
  deriving DecidableEq, Repr

namespace CallError

def message : CallError → String
  | .io _ message => message
  | .other message => message

def alreadyExists : CallError → Bool
  | .io kind _ => kind = .alreadyExists
  | .other _ => false

theorem otherKind {kind : ErrorKind} {message : String} :
    (CallError.io kind message).alreadyExists = false ↔ kind ≠ .alreadyExists := by
  simp [alreadyExists]

end CallError

def attempt {α : Type} (failure : Option CallError) (done : Except CallError α) : Except CallError α :=
  match failure with
  | some err => .error err
  | none => done

/- The operator `?`. -/
def raise {α : Type} (x : Except CallError α) : Res α := x.mapError (fun err => .bail err.message)

@[simp] theorem raiseOk {α : Type} {x : Except CallError α} {a : α} : raise x = .ok a ↔ x = .ok a := by
  cases x <;> simp [raise, Except.mapError]

@[simp] theorem attemptOk {α : Type} {failure : Option CallError} {done : Except CallError α} {a : α} :
    attempt failure done = .ok a ↔ failure = none ∧ done = .ok a := by
  cases failure <;> simp [attempt]

/-- A new link takes an index that no link has. -/
structure LinkTable where
  links : List Link
  nextIndex : Nat
  below : ∀ l ∈ links, l.asIndex < nextIndex

/- The link that the system makes of a request. It chooses the index and may change the MTU. -/
def Link.made (newMtu : Nat → Nat) (index : Nat) (link : Link) : Link :=
  { link with linkAttrs := { link.linkAttrs with index, mtu := newMtu link.linkAttrs.mtu } }

namespace LinkTable
variable (t : LinkTable)

def has (index : Nat) : Bool := t.links.any (fun l => l.asIndex = index)

def linkByName (name : String) : Option Link := t.links.find? (fun l => l.linkAttrs.name = name)

def linkAdd (newMtu : Nat → Nat) (link : Link) : Except CallError LinkTable :=
  if (t.linkByName link.linkAttrs.name).isSome then .error (.io .alreadyExists "File exists")
  else .ok {
    links := t.links ++ [link.made newMtu t.nextIndex]
    nextIndex := t.nextIndex + 1
    below := by
      rw [List.forall_mem_append, List.forall_mem_singleton]
      exact ⟨fun l mem => Nat.lt_succ_of_lt (t.below l mem), Nat.lt_succ_self _⟩ }

theorem withoutBelow {index : Nat} : ∀ l ∈ t.links.filter (fun l => l.asIndex ≠ index), l.asIndex < t.nextIndex :=
  fun l mem => t.below l (List.mem_filter.mp mem).1

def without (index : Nat) : LinkTable where
  links := t.links.filter (fun l => l.asIndex ≠ index)
  nextIndex := t.nextIndex
  below := t.withoutBelow

def linkDel (index : Nat) : Except CallError LinkTable :=
  if t.has index then .ok (t.without index) else .error (.io (.other "NotFound") "No such device")

/- The link of the index is gone. -/
def lost (after : LinkTable) (index : Nat) : Bool := t.has index && !after.has index

end LinkTable

/- What the system answers to the netlink calls: the MTU of a new link by the requested one, and
which calls fail of themselves, in the order in which they are made. -/
structure LinkCalls where
  newMtu : Nat → Nat
  add : Option CallError := none
  existing : Option CallError := none
  del : Option CallError := none
  readd : Option CallError := none
  found : Option CallError := none

/- `true` where the two links are compatible; an unset device, address, group or port fits any. -/
def vxlanLinksIncompat (l1 l2 : Link) : Bool :=
  if l1.kind ≠ l2.kind then false
  else match l1.asVxlan, l2.asVxlan with
  | some v1, some v2 =>
    if v1.vxlanId ≠ v2.vxlanId then false
    else if v1.vtepDevIndex > 0 ∧ v2.vtepDevIndex > 0 ∧ v1.vtepDevIndex ≠ v2.vtepDevIndex then false
    else if v1.srcAddr.isSome ∧ v2.srcAddr.isSome ∧ v1.srcAddr ≠ v2.srcAddr then false
    else if v1.group.isSome ∧ v2.group.isSome ∧ v1.group ≠ v2.group then false
    else if v1.l2miss ≠ v2.l2miss then false
    else if v1.port > 0 ∧ v2.port > 0 ∧ v1.port ≠ v2.port then false
    else if v1.gbp ≠ v2.gbp then false
    else true
  | _, _ => false

def lookUp (failure : Option CallError) (link : Link) (t : LinkTable) : Res Link := do
  let found ← raise (attempt failure (.ok (t.linkByName link.linkAttrs.name)))
  okOr "link not found" found

/- The link that an add met, or the table in which it was replaced. -/
def replaceExisting (calls : LinkCalls) (link : Link) (t : LinkTable) : Res (Option Link) × LinkTable :=
  match context link.linkAttrs.name (raise (attempt calls.existing (.ok (t.linkByName link.linkAttrs.name)))) with
  | .error stop => (.error stop, t)
  | .ok none => (.error (.bail "link not found"), t)
  | .ok (some existing) =>
    if vxlanLinksIncompat link existing then (.ok (some existing), t)
    else match context "link del failed" (raise (attempt calls.del (t.linkDel existing.asIndex))) with
    | .error stop => (.error stop, t)
    | .ok t =>
      match context "link add failed" (raise (attempt calls.readd (t.linkAdd calls.newMtu link))) with
      | .error stop => (.error stop, t)
      | .ok t => (.ok none, t)

def ensureVxlanLink (calls : LinkCalls) (link : Link) (t : LinkTable) : Res Link × LinkTable :=
  match attempt calls.add (t.linkAdd calls.newMtu link) with
  | .ok t => (lookUp calls.found link t, t)
  | .error (.other message) => (.error (.bail message), t)
  | .error (.io kind _) =>
    if kind = .alreadyExists then
      match replaceExisting calls link t with
      | (.error stop, t) => (.error stop, t)
      | (.ok (some existing), t) => (.ok existing, t)
      | (.ok none, t) => (lookUp calls.found link t, t)
    else (lookUp calls.found link t, t)

/-- The link was made of the request, and it was not there before. -/
structure Created (newMtu : Nat → Nat) (link : Link) (before after : LinkTable) (l : Link) : Prop where
  request : l = link.made newMtu l.asIndex
  missing : l ∉ before.links
  present : l ∈ after.links

/-- A link of the name stays although the add failed. -/
structure TakenOver (calls : LinkCalls) (link : Link) (t : LinkTable) (l : Link) : Prop where
  named : t.linkByName link.linkAttrs.name = some l
  met : ∃ kind message, attempt calls.add (t.linkAdd calls.newMtu link) = .error (.io kind message) ∧
    (kind = .alreadyExists → vxlanLinksIncompat link l = true)

/-- What is returned fits, and an add that fails for another reason changes nothing. -/
structure Ensures (calls : LinkCalls) (link : Link) (t : LinkTable) (x : Res Link × LinkTable) : Prop where
  fits : ∀ l, x.1 = .ok l → Created calls.newMtu link t x.2 l ∨ vxlanLinksIncompat link l = true
  fails : ∀ err, attempt calls.add (t.linkAdd calls.newMtu link) = .error err → err.alreadyExists = false →
    (∃ stop, x.1 = .error stop) ∧ x.2 = t

variable {calls : LinkCalls} {link l existing : Link} {t after : LinkTable} {failure : Option CallError} {kind : ErrorKind}
variable {newMtu : Nat → Nat}

theorem addedLink (added : t.linkAdd newMtu link = .ok after) : after.links = t.links ++ [link.made newMtu t.nextIndex] ∧
    after.linkByName link.linkAttrs.name = some (link.made newMtu t.nextIndex) := by
  unfold LinkTable.linkAdd at added
  split at added
  · contradiction
  · rename_i absent
    cases Except.ok.inj added
    refine ⟨rfl, ?_⟩
    have none_ : t.links.find? (fun l => l.linkAttrs.name = link.linkAttrs.name) = none := by
      simpa [LinkTable.linkByName] using absent
    change (t.links ++ [link.made newMtu t.nextIndex]).find? _ = _
    rw [List.find?_append, none_, Option.none_or, List.find?_cons_of_pos]
    simp [Link.made]

theorem lookedUp : lookUp failure link t = .ok l ↔ failure = none ∧ t.linkByName link.linkAttrs.name = some l := by
  simp [lookUp, bindOk]

/- The link of an add that was done has an index of its own. -/
theorem createdLink {before : LinkTable} (older : ∀ l ∈ before.links, l.asIndex < t.nextIndex)
    (added : t.linkAdd newMtu link = .ok after) (found : lookUp failure link after = .ok l) : Created newMtu link before after l := by
  obtain ⟨links, named⟩ := addedLink added
  cases Option.some.inj (named.symm.trans (lookedUp.mp found).2)
  refine ⟨rfl, fun old => absurd (older _ old) (Nat.lt_irrefl _), ?_⟩
  rw [links]
  exact List.mem_append_right _ (List.mem_singleton_self _)

theorem deletedBelow {index : Nat} {left : LinkTable} (deleted : t.linkDel index = .ok left) :
    ∀ l ∈ t.links, l.asIndex < left.nextIndex := by
  unfold LinkTable.linkDel at deleted
  split at deleted
  · cases Except.ok.inj deleted
    exact t.below
  · contradiction

/- Either the link that was met is compatible, or it was replaced. -/
theorem replacedExisting {o : Option Link} (done : replaceExisting calls link t = (.ok o, after)) :
    ∃ existing, t.linkByName link.linkAttrs.name = some existing ∧
      ((vxlanLinksIncompat link existing = true ∧ o = some existing ∧ after = t) ∨
        (vxlanLinksIncompat link existing = false ∧ o = none ∧
          ∃ left, t.linkDel existing.asIndex = .ok left ∧ left.linkAdd calls.newMtu link = .ok after)) := by
  unfold replaceExisting at done
  split at done
  · simp at done
  · simp at done
  · rename_i existing found
    have named : t.linkByName link.linkAttrs.name = some existing := (by simpa using found : _ ∧ _).2
    refine ⟨existing, named, ?_⟩
    split at done
    · rename_i fits
      obtain ⟨same, unchanged⟩ := Prod.mk.inj done
      exact .inl ⟨fits, (Except.ok.inj same).symm, unchanged.symm⟩
    · rename_i unfit
      split at done
      · simp at done
      · rename_i left deleted
        split at done
        · simp at done
        · rename_i added
          obtain ⟨same, final⟩ := Prod.mk.inj done
          simp only [contextOk, raiseOk, attemptOk] at deleted added
          exact .inr ⟨(Bool.not_eq_true _).mp unfit, (Except.ok.inj same).symm, left, deleted.2, final ▸ added.2⟩

theorem ensuredLink (done : ensureVxlanLink calls link t = (.ok l, after)) :
    (Created calls.newMtu link t after l ∧ ∀ l', ¬TakenOver calls link t l') ∨ (TakenOver calls link t l ∧ after = t) := by
  unfold ensureVxlanLink at done
  split at done
  · rename_i fresh added
    obtain ⟨found, final⟩ := Prod.mk.inj done
    refine .inl ⟨final ▸ createdLink t.below (attemptOk.mp added).2 found, ?_⟩
    rintro l' ⟨_, kind, message, failed, _⟩
    rw [added] at failed
    contradiction
  · simp at done
  · rename_i kind message failed
    split at done
    · rename_i exists_
      split at done
      · simp at done
      · rename_i existing left replaced
        obtain ⟨same, final⟩ := Prod.mk.inj done
        obtain ⟨_, named, ⟨fits, is, unchanged⟩ | ⟨_, is, _⟩⟩ := replacedExisting replaced
        · cases Option.some.inj is
          cases Except.ok.inj same
          exact .inr ⟨⟨named, kind, message, failed, fun _ => fits⟩, final ▸ unchanged⟩
        · contradiction
      · rename_i left replaced
        obtain ⟨found, final⟩ := Prod.mk.inj done
        obtain ⟨existing, named, ⟨_, is, _⟩ | ⟨unfit, _, between, deleted, added⟩⟩ := replacedExisting replaced
        · contradiction
        · refine .inl ⟨final ▸ createdLink (deletedBelow deleted) added found, ?_⟩
          rintro l' ⟨named', kind', message', failed', fits⟩
          cases named.symm.trans named'
          cases failed.symm.trans failed'
          rw [fits exists_] at unfit
          contradiction
    · rename_i other
      obtain ⟨found, final⟩ := Prod.mk.inj done
      exact .inr ⟨⟨(lookedUp.mp found).2, kind, message, failed, fun exists_ => absurd exists_ other⟩, final.symm⟩

/- The add alone fails as the link is there; other failures come from the call. -/
theorem failedOther {err : CallError} (failed : attempt calls.add (t.linkAdd calls.newMtu link) = .error err)
    (other : err.alreadyExists = false) : calls.add = some err := by
  cases own : calls.add with
  | some first =>
    rw [own] at failed
    exact congrArg some (Except.error.inj failed)
  | none =>
    simp only [own, attempt, LinkTable.linkAdd] at failed
    split at failed
    · cases Except.error.inj failed
      contradiction
    · contradiction

theorem fallsThrough {message : String} (failed : attempt calls.add (t.linkAdd calls.newMtu link) = .error (.io kind message))
    (other : kind ≠ .alreadyExists) : ensureVxlanLink calls link t = (lookUp calls.found link t, t) := by
  rw [ensureVxlanLink, failed]
  exact if_neg other

/- What a call that falls through to a link has met. -/
theorem fallenThrough {message : String} (failed : attempt calls.add (t.linkAdd calls.newMtu link) = .error (.io kind message))
    (other : kind ≠ .alreadyExists) (looked : lookUp calls.found link t = .ok l) :
    (∃ kind message, calls.add = some (.io kind message) ∧ kind ≠ .alreadyExists) ∧ calls.found = none ∧
      (t.linkByName link.linkAttrs.name).isSome := by
  obtain ⟨quiet, named⟩ := lookedUp.mp looked
  have own := failedOther failed (CallError.otherKind.mpr other)
  exact ⟨⟨kind, message, own, other⟩, quiet, Option.isSome_iff_exists.mpr ⟨l, named⟩⟩

theorem ensuresFitting : Ensures calls link t (ensureVxlanLink calls link t) ↔
    ¬((∃ kind message, calls.add = some (.io kind message) ∧ kind ≠ .alreadyExists) ∧ calls.found = none ∧
      (t.linkByName link.linkAttrs.name).isSome) := by
  constructor
  · rintro ensures ⟨⟨kind, message, add, other⟩, found, present⟩
    obtain ⟨l, named⟩ := Option.isSome_iff_exists.mp present
    have failed : attempt calls.add (t.linkAdd calls.newMtu link) = .error (.io kind message) := by rw [add, attempt]
    obtain ⟨⟨stop, errs⟩, _⟩ := ensures.fails _ failed (CallError.otherKind.mpr other)
    rw [fallsThrough failed other, lookedUp.mpr ⟨found, named⟩] at errs
    contradiction
  · intro rest
    refine ⟨fun l done => ?_, fun err failed other => ?_⟩
    · rcases ensuredLink (Prod.ext done rfl) with ⟨created, _⟩ | ⟨⟨named, kind, message, failed, fits⟩, _⟩
      · exact .inl created
      · by_cases exists_ : kind = .alreadyExists
        · exact .inr (fits exists_)
        · rw [fallsThrough failed exists_] at done
          exact absurd (fallenThrough failed exists_ done) rest
    · cases err with
      | other message =>
        rw [ensureVxlanLink, failed]
        exact ⟨⟨_, rfl⟩, rfl⟩
      | io kind message =>
        have differs : kind ≠ .alreadyExists := CallError.otherKind.mp other
        rw [fallsThrough failed differs]
        refine ⟨?_, rfl⟩
        cases looked : lookUp calls.found link t with
        | error stop => exact ⟨stop, rfl⟩
        | ok l => exact absurd (fallenThrough failed differs looked) rest

private def wantedVxlan : Link where
  linkAttrs := { name := "flannel.1", mtu := 1450, hardwareAddr := some 0x0242AC110002 }
  linkKind := .vxlan { vxlanId := 1, vtepDevIndex := 2, srcAddr := some (.v4 0xC0A80002) }

private def staleVxlan : Link where
  linkAttrs := { index := 5, name := "flannel.1", mtu := 1450 }
  linkKind := .vxlan { vxlanId := 7 }

private def staleTable : LinkTable := ⟨[staleVxlan], 6, by decide⟩

/- The program may not add links, and a link of another VNI is returned. -/
theorem deniedStaleReturned :
    let calls : LinkCalls := { newMtu := id, add := some (.io (.other "PermissionDenied") "Operation not permitted") }
    ensureVxlanLink calls wantedVxlan staleTable = (.ok staleVxlan, staleTable) ∧
      vxlanLinksIncompat wantedVxlan staleVxlan = false ∧
      ¬Ensures calls wantedVxlan staleTable (ensureVxlanLink calls wantedVxlan staleTable) := by
  have returned : ensureVxlanLink { newMtu := id, add := some (.io (.other "PermissionDenied") "Operation not permitted") }
      wantedVxlan staleTable = (.ok staleVxlan, staleTable) := rfl
  refine ⟨returned, by decide, fun ensures => ?_⟩
  obtain ⟨⟨stop, errs⟩, _⟩ := ensures.fails _ rfl rfl
  rw [returned] at errs
  contradiction

end FlannelNg
