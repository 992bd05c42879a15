import FlannelNg.BadRecords
import FlannelNg.ClusterRoutes

/-! What the nodes of a cluster write about themselves and what a watch tells of it. Each
node enters its lease with the attributes of its backend, also where it takes over an entry
or follows the watch of its own key. -/
namespace FlannelNg
open Cidr Outcome Replay Runs

section Entered
variable {N : Type} (attrsOf : N → LeaseAttrs)

/- The attributes of some node. -/
def Entered (attrs : LeaseAttrs) : Prop := ∃ n, attrs = attrsOf n

def LocalEntered : Local → Prop
  | .idle => True
  | .started _ attrs => Entered attrsOf attrs
  | .deciding attrs choice => Entered attrsOf attrs ∧ ∀ lease, choice = .reuse lease → Entered attrsOf lease.attrs
  | .holding lease none => Entered attrsOf lease.attrs
  | .holding lease (some w) => Entered attrsOf lease.attrs ∧ w.Holds (fun l => Entered attrsOf l.attrs)

variable {attrsOf} {build : Build} {stored : Res Config} {ip : Ipv4Addr} {db after : Store} {l l' : Local} {x : NodeAction}

theorem putsEntered {kv : KeyValue Ipv4Network LeaseAttrs} (entered : LocalEntered attrsOf l) (puts : Puts db l x kv) :
    Entered attrsOf kv.value := by
  cases puts with
  | reuse => exact entered.1
  | create _ _ => exact entered.1
  | @renew lease w rpc id =>
    cases w with
    | none => exact entered
    | some w => exact entered.1

theorem movesEntered {base : Nat} (entries : ∀ kv ∈ db.kvs, Entered attrsOf kv.value)
    (logged : ∀ kv, .put kv ∈ (db.log.drop base).flatten → Entered attrsOf kv.value) (since : LocalSince base db l)
    (own : ∀ attrs, x = .start attrs → Entered attrsOf { attrs with publicIp := ip })
    (moves : Moves build stored ip db l x l' after) (entered : LocalEntered attrsOf l) : LocalEntered attrsOf l' := by
  cases moves with
  | stay => exact entered
  | stop => trivial
  | lost failed => trivial
  | start accepted => exact own _ rfl
  | @read config attrs rpc fuel pick choice chosen =>
    refine ⟨entered, ?_⟩
    rintro lease rfl
    obtain ⟨leases, revision, read, chose⟩ := decided chosen
    obtain ⟨kv, member, _, attrs⟩ := plainStored read (List.mem_of_find?_eq_some (choseReuse chose).1)
    exact attrs ▸ entries kv member
  | @won attrs choice rpc lease _ ok =>
    obtain ⟨exp, _, rfl, _⟩ := committed ok
    cases choice with
    | reuse old => exact entered.2 old rfl
    | create sn => exact entered.1
  | @renewed lease w rpc next _ ok =>
    obtain ⟨_, same⟩ := renewKeeps ok
    cases w with
    | none => exact (same ▸ entered : Entered attrsOf next.attrs)
    | some w => exact ⟨same ▸ entered.1, entered.2⟩
  | unrenewed failed => exact entered
  | @watching lease rpc =>
    refine ⟨entered, fun batch member e inside put => ?_⟩
    obtain ⟨kv, found, _, attrs⟩ := OwnWatch.watchHolds batch member e inside put
    exact attrs ▸ entries kv (Etcd.getSome found).1
  | fetched live =>
    exact ⟨entered.1, OwnWatch.fetchHolds entered.2 fun kv behind _ lease _ attrs =>
      attrs ▸ logged kv (behindSince (since live) behind)⟩
  | delivered received followed =>
    refine ⟨OwnWatch.followed (P := fun l => Entered attrsOf l.attrs) followed entered.1 ?_, ?_⟩
    · exact fun e inside put => entered.2 _ (by simp [received]) e inside put
    · exact fun other member e inside put => entered.2 other (by simp [received, member]) e inside put

end Entered

section Cluster
variable {N : Type} [DecidableEq N] {build : Build} {publicIp : N → Ipv4Addr} {config : Config} {attrsOf : N → LeaseAttrs}
variable {c : Cluster N} {a : Action N} {actions : List (Action N)} {base : Nat}

/-- In a safe cluster everything that was put since the start is of the configured length, clear
of what an older configuration left, and has the attributes of some node. -/
structure Announcing (build : Build) (config : Config) (attrsOf : N → LeaseAttrs) (base : Nat) (c : Cluster N) : Prop where
  safe : Safe build config c
  recorded : Recorded Codec.plain c.db
  since : Since base c
  good : ∀ kv, .put kv ∈ (c.db.log.drop base).flatten → Good config.subnetLen c.db kv.key
  entries : ∀ kv ∈ c.db.kvs, Entered attrsOf kv.value
  logged : ∀ kv, .put kv ∈ (c.db.log.drop base).flatten → Entered attrsOf kv.value
  nodes : ∀ n, LocalEntered attrsOf (c.node n)

/- Every node starts with its own attributes; otherwise the steps are free. -/
def StartsAs (publicIp : N → Ipv4Addr) (attrsOf : N → LeaseAttrs) (a : Action N) : Prop :=
  SteadyAnswered a ∧ ∀ n attrs, a = .act n (.start attrs) → { attrs with publicIp := publicIp n } = attrsOf n

theorem stepAnnouncing (announcing : Announcing build config attrsOf base c) (permitted : StartsAs publicIp attrsOf a) :
    Announcing build config attrsOf base (step build publicIp c a) := by
  have changed := @stepChanged N _ build publicIp c a
  have good : ∀ kv, (∃ n x, a = .act n x ∧ Puts c.db (c.node n) x kv) → Good config.subnetLen c.db kv.key := by
    rintro kv ⟨n, x, _, puts⟩
    exact putsGood (announcing.safe.nodes n) puts
  have entered : ∀ kv, (∃ n x, a = .act n x ∧ Puts c.db (c.node n) x kv) → Entered attrsOf kv.value := by
    rintro kv ⟨n, x, _, puts⟩
    exact putsEntered (announcing.nodes n) puts
  refine ⟨stepSafe announcing.safe permitted.1, stepRecorded announcing.recorded, stepSince a announcing.since, ?_, ?_, ?_, ?_⟩
  · intro kv member
    refine goodChanged changed good ?_
    rcases changedSince changed member with old | new
    · exact announcing.good kv old
    · exact good kv new
  · intro kv member
    rcases changedMem changed member with old | new
    · exact announcing.entries kv old
    · exact entered kv new
  · intro kv member
    rcases changedSince changed member with old | new
    · exact announcing.logged kv old
    · exact entered kv new
  · cases a with
    | configure stored => exact announcing.nodes
    | expire key => exact announcing.nodes
    | act n x =>
      obtain ⟨l, node, moves⟩ := @stepAct N _ build publicIp c n x
      intro m
      rw [node]
      by_cases same : m = n
      · subst same
        rw [Function.update_self]
        refine movesEntered announcing.entries announcing.logged (announcing.since.nodes m) ?_ moves (announcing.nodes m)
        rintro attrs rfl
        exact ⟨m, permitted.2 m attrs rfl⟩
      · rw [Function.update_of_ne same]
        exact announcing.nodes m

theorem runAnnouncing (announcing : Announcing build config attrsOf base c)
    (permitted : ∀ a ∈ actions, StartsAs publicIp attrsOf a) :
    Announcing build config attrsOf base (run (step build publicIp) c actions) :=
  runInvariant (fun _ _ announcing permitted => stepAnnouncing announcing permitted) announcing (alongOfMem permitted)

/-- No node has started, and what the store has was entered by earlier runs of the nodes. -/
structure Unstarted (build : Build) (config : Config) (attrsOf : N → LeaseAttrs) (c : Cluster N) : Prop where
  accepted : getNetworkConfig build c.stored = .ok config
  apart : Apart c.db
  recorded : Recorded Codec.plain c.db
  entries : ∀ kv ∈ c.db.kvs, Entered attrsOf kv.value
  idle : ∀ n, c.node n = .idle

omit [DecidableEq N] in
theorem startAnnouncing (unstarted : Unstarted build config attrsOf c) :
    Announcing build config attrsOf c.db.log.length c where
  safe := ⟨unstarted.accepted, unstarted.apart, fun n => unstarted.idle n ▸ trivial⟩
  recorded := unstarted.recorded
  since := sinceIdle unstarted.idle
  good := fun kv put => by rw [List.drop_length] at put; exact absurd put List.not_mem_nil
  entries := unstarted.entries
  logged := fun kv put => by rw [List.drop_length] at put; exact absurd put List.not_mem_nil
  nodes := fun n => unstarted.idle n ▸ trivial

end Cluster

/- The puts among the events are of such entries. -/
def PutsOf (P : KeyValue Ipv4Network LeaseAttrs → Prop) (events : List LeaseWatchEvent) : Prop :=
  ∀ e ∈ events, e.eventType = .put → ∃ kv, P kv ∧ e.lease.subnet = kv.key ∧ e.lease.attrs = kv.value

/-- What a watch with nothing outstanding has emitted: first of the entries that its snapshot
showed, then of what was put later. Its deletes name the attributes of the last put. -/
structure Told (own : Lease) (before after : Store) (events : List LeaseWatchEvent) : Prop where
  view : replay unknown (events.map LeaseWatchEvent.change) = othersView own.subnet after
  names : Along learn NamesKnown unknown events
  parts : ∃ shown later, events = shown ++ later ∧ PutsOf (fun kv => kv ∈ before.kvs) shown ∧
    PutsOf (fun kv => .put kv ∈ (after.log.drop before.log.length).flatten) later

theorem LeaseWatcher.updatePut {w : LeaseWatcher} {events : List LeaseWatchEvent} {e : LeaseWatchEvent}
    (member : e ∈ (w.update events).1) (put : e.eventType = .put) : e ∈ events := by
  induction events generalizing w with
  | nil => exact absurd member List.not_mem_nil
  | cons first rest ih =>
    rw [update] at member
    rcases List.mem_append.mp member with here | later
    · rw [updateOneSays] at here
      split at here
      · exact absurd here List.not_mem_nil
      · obtain rfl := List.mem_singleton.mp here
        dsimp only at put
        have same : w.subject first = first.lease := by simp only [subject, put]
        rw [same]
        exact List.mem_cons_self
    · exact List.mem_cons_of_mem _ (ih later)

section Told
variable {own : Lease} {before after db : Store} {rpc : ReadRpc Ipv4Network LeaseAttrs} {registered : Nat}
variable {responses : List (WatchResponse Ipv4Network LeaseAttrs)} {events : List LeaseWatchEvent}
variable {kv : KeyValue Ipv4Network LeaseAttrs} {P : LeaseAttrs → Prop} {v : View}

theorem answeredResponds {d : Delivery Ipv4Network LeaseAttrs} (answered : ∀ kv, d.event = .put kv → Answered d.ttl d.now) :
    Responds d := by
  intro kv put
  obtain ⟨secs, exp, ttl, _, added⟩ := answeredExp (answered kv put)
  exact ⟨secs, ttl, .inr ⟨exp, added⟩⟩

theorem plainClear (resp : WatchResponse Ipv4Network LeaseAttrs) : clear Codec.plain resp = true := by
  refine List.all_eq_true.mpr fun d _ => ?_
  obtain ⟨event, ttl, now⟩ := d
  cases event <;> rfl

theorem plainDelivered (caughtUp : CaughtUp rpc responses registered before after) : deliveredEvents Codec.plain responses =
    (responses.flatMap WatchResponse.events).filterMap (decoded Codec.plain) := by
  have responds := fun d mem => answeredResponds (caughtUp.answered' d mem)
  rw [(watchedPrefix caughtUp.live responds).1, List.takeWhile_eq_self_iff.mpr (fun resp _ => plainClear resp)]

theorem decodedPuts {ds : List (Delivery Ipv4Network LeaseAttrs)} :
    PutsOf (fun kv => .put kv ∈ ds.map Delivery.event) (ds.filterMap (decoded Codec.plain)) := by
  intro e member put
  obtain ⟨d, delivered, found⟩ := List.mem_filterMap.mp member
  have parsed : parseSubnetWatchResp Codec.plain d = .ok (some e) := by
    unfold decoded at found
    split at found
    · rename_i e' ok
      rw [ok, found]
    · contradiction
  obtain ⟨kv, event, subnet, attrs⟩ := plainPut parsed put
  exact ⟨kv, List.mem_map.mpr ⟨d, delivered, event⟩, subnet, attrs⟩

theorem putsOfMono {Q R : KeyValue Ipv4Network LeaseAttrs → Prop} (implied : ∀ kv, Q kv → R kv) (puts : PutsOf Q events) :
    PutsOf R events := by
  intro e member put
  obtain ⟨kv, known, same⟩ := puts e member put
  exact ⟨kv, implied kv known, same⟩

theorem putsOfUpdate {Q : KeyValue Ipv4Network LeaseAttrs → Prop} {w : LeaseWatcher} (puts : PutsOf Q events) :
    PutsOf Q (w.update events).1 :=
  fun e member put => puts e (LeaseWatcher.updatePut member put) put

/- The last transaction before the snapshot is delivered again; its entries are still there. -/
theorem deliveredParts (settled : Settled before) (recorded : Recorded Codec.plain before) (later : before.log <+: after.log)
    (caughtUp : CaughtUp rpc responses registered before after) :
    ∃ again new, responses.flatMap WatchResponse.events = again ++ new ∧
      (∀ kv, .put kv ∈ again.map Delivery.event → kv ∈ before.kvs) ∧
      new.map Delivery.event = (after.log.drop before.log.length).flatten := by
  obtain ⟨txns, whole⟩ := later
  have delivered := caughtUp.delivered
  rw [deliveredSince, ← whole] at delivered
  rcases List.eq_nil_or_concat before.log with none | ⟨init, txn, log⟩
  · exact absurd (caughtUpBegun recorded caughtUp) (by rw [none]; exact Nat.lt_irrefl 0)
  · rw [List.concat_eq_append] at log
    have since : (before.log ++ txns).drop (before.log.length - 1) = txn :: txns := by
      rw [log, List.length_append, List.append_assoc, List.length_singleton, Nat.add_sub_cancel, List.drop_left]
      rfl
    rw [since, List.flatten_cons] at delivered
    obtain ⟨again, new, parts, first, rest⟩ := List.map_eq_append_iff.mp delivered
    refine ⟨again, new, parts, fun kv put => ?_, ?_⟩
    · rw [first] at put
      exact Etcd.memIff.mpr (settled txn (by rw [log, List.getLast?_concat]) kv put)
    · rw [rest, ← whole, List.drop_left]

/- The received events are those of a snapshot of the entries and of the responses. -/
theorem caughtUpEmits (own : Lease) (recorded : Recorded Codec.plain before)
    (caughtUp : CaughtUp rpc responses registered before after) {results : List LeaseWatchResult}
    (inner : watchLeasesInner Codec.plain rpc before responses = .ok results) :
    ∃ snapshot, Keyed.Distinct Lease.subnet snapshot ∧
      (∀ nl ∈ snapshot, ∃ kv ∈ before.kvs, nl.subnet = kv.key ∧ nl.attrs = kv.value) ∧
      received own results = (watched Codec.plain own snapshot responses).emitted := by
  obtain ⟨wr, read, none, _, fresh, _⟩ := resetAll (plainEventsWellFormed before.log.flatten) caughtUp.succeeds
    (fun kv _ => caughtUp.answered kv)
  rw [← recorded] at read
  simp only [watchLeasesInner, bindOk] at inner
  obtain ⟨_, read', last⟩ := inner
  cases Except.ok.inj (read.symm.trans read')
  cases Except.ok.inj last
  refine ⟨wr.snapshot, fresh, fun nl listed => ?_, ?_⟩
  · simp only [leasesWatchReset, bindOk] at read
    obtain ⟨⟨leases, index⟩, got, made⟩ := read
    cases Except.ok.inj made
    exact plainStored got listed
  · have first : (Watch.start own).handle wr = (Watch.start own).handle { snapshot := wr.snapshot } := by
      simp only [Watch.handle, Watch.batchOf, none]
    rw [received, watched, runCons, runCons, first]

theorem caughtUpTold (own : Lease) (settled : Settled before) (recorded : Recorded Codec.plain before)
    (recorded' : Recorded Codec.plain after) (later : before.log <+: after.log)
    (caughtUp : CaughtUp rpc responses registered before after) : ∃ results,
      watchLeasesInner Codec.plain rpc before responses = .ok results ∧ Told own before after (received own results) := by
  obtain ⟨results, inner, inStep⟩ := caughtUpInStep own recorded recorded' later caughtUp
  obtain ⟨snapshot, fresh, stored, emitted⟩ := caughtUpEmits own recorded caughtUp inner
  have responds := fun d mem => answeredResponds (caughtUp.answered' d mem)
  obtain ⟨_, plain⟩ := watchedPrefix caughtUp.live responds
  refine ⟨results, inner, receivedView inStep, ?_, ?_⟩ <;> rw [emitted]
  · rw [watched, runCons, handlePlain plain, ← runCons, ← LeaseWatcher.emitsHandled]
    refine LeaseWatcher.deletesNameKnown fresh fun events listed e member => ?_
    obtain ⟨wr, mem, rfl⟩ := List.mem_map.mp listed
    exact deliveredSource caughtUp.live responds e (List.mem_flatMap.mpr ⟨wr, mem, member⟩)
  · obtain ⟨again, new, parts, shown, since⟩ := deliveredParts settled recorded later caughtUp
    have fromAgain := putsOfMono shown (@decodedPuts again)
    have fromNew : PutsOf (fun kv => .put kv ∈ (after.log.drop before.log.length).flatten) (new.filterMap (decoded Codec.plain)) :=
      putsOfMono (fun kv put => since ▸ put) (@decodedPuts new)
    rw [watchedEmits fresh plain, plainDelivered caughtUp, parts, List.filterMap_append, LeaseWatcher.updateAppend,
      ← List.append_assoc]
    refine ⟨_, _, rfl, ?_, putsOfUpdate fromNew⟩
    intro e member put
    rcases List.mem_append.mp member with first | repeated
    · obtain ⟨nl, listed, rfl⟩ := List.mem_map.mp first
      exact stored nl (List.mem_filter.mp listed).1
    · exact putsOfUpdate fromAgain e repeated put

end Told

section Heard
variable {N : Type} [DecidableEq N] {build : Build} {publicIp : N → Ipv4Addr} {config : Config} {attrsOf : N → LeaseAttrs}
variable {rpc : ReadRpc Ipv4Network LeaseAttrs} {responses : List (WatchResponse Ipv4Network LeaseAttrs)} {registered : Nat}
variable {c before after : Cluster N} {pre post : List (Action N)} {own : Lease} {events earlier later : List LeaseWatchEvent}
variable {e e' : LeaseWatchEvent} {kv : KeyValue Ipv4Network LeaseAttrs} {base : Nat}

/-- What a node's watch is told of, between two states of a cluster's run. -/
structure Heard (build : Build) (config : Config) (attrsOf : N → LeaseAttrs) (base : Nat) (own : Lease)
    (before after : Cluster N) (events : List LeaseWatchEvent) : Prop where
  first : Announcing build config attrsOf base before
  last : Announcing build config attrsOf base after
  told : Told own before.db after.db events

theorem runHeard (own : Lease) (unstarted : Unstarted build config attrsOf c)
    (permitted : ∀ a ∈ pre ++ post, StartsAs publicIp attrsOf a) (snapshot : run (step build publicIp) c pre = before)
    (reached : run (step build publicIp) before post = after) (caughtUp : CaughtUp rpc responses registered before.db after.db) :
    ∃ results, watchLeasesInner Codec.plain rpc before.db responses = .ok results ∧
      Heard build config attrsOf c.db.log.length own before after (received own results) := by
  have first : Announcing build config attrsOf c.db.log.length before :=
    snapshot ▸ runAnnouncing (startAnnouncing unstarted) (fun a mem => permitted a (List.mem_append_left _ mem))
  have last : Announcing build config attrsOf c.db.log.length after :=
    reached ▸ runAnnouncing first (fun a mem => permitted a (List.mem_append_right _ mem))
  obtain ⟨results, inner, told⟩ := caughtUpTold own before.settled first.recorded last.recorded (reached ▸ runLog) caughtUp
  exact ⟨results, inner, first, last, told⟩

omit [DecidableEq N] in
theorem heardEntered (heard : Heard build config attrsOf base own before after events) :
    ∀ e ∈ events, e.eventType = .put → Entered attrsOf e.lease.attrs := by
  obtain ⟨shown, later, rfl, fromSnapshot, sinceThen⟩ := heard.told.parts
  intro e member put
  rcases List.mem_append.mp member with early | late
  · obtain ⟨kv, stored, _, attrs⟩ := fromSnapshot e early put
    exact attrs ▸ heard.first.entries kv stored
  · obtain ⟨kv, logged, _, attrs⟩ := sinceThen e late put
    exact attrs ▸ heard.last.logged kv (behindSince heard.first.since.begun logged)

theorem laterPart {α : Type} {shown later pre post : List α} {e e' : α} (split : shown ++ later = pre ++ e :: post)
    (member : e' ∈ post) : e' ∈ later ∨ e ∈ shown ∧ e' ∈ shown := by
  rcases List.append_eq_append_iff.mp split with ⟨more, _, rest⟩ | ⟨more, first, rest⟩
  · refine .inl ?_
    rw [rest]
    exact List.mem_append_right _ (List.mem_cons_of_mem _ member)
  · cases more with
    | nil => exact .inl (by rw [← List.nil_append later, ← rest]; exact List.mem_cons_of_mem _ member)
    | cons e'' more =>
      obtain ⟨rfl, rfl⟩ := List.cons.inj rest
      rcases List.mem_append.mp member with early | late
      · exact .inr ⟨by rw [first]; simp, by rw [first]; simp [early]⟩
      · exact .inl late

omit [DecidableEq N] in
/- After the put of an entry that is there, no other subnet of its address was put. -/
theorem sameSubnet (heard : Heard build config attrsOf base own before after events) (parts : events = earlier ++ e :: later)
    (put : e.eventType = .put) (subnet : e.lease.subnet = kv.key) (stored : kv ∈ after.db.kvs) (member : e' ∈ later)
    (put' : e'.eventType = .put) (sameIp : e'.lease.subnet.ip = kv.key.ip) : e'.lease.subnet = kv.key := by
  obtain ⟨shown, since, whole, fromSnapshot, sinceThen⟩ := heard.told.parts
  by_contra differ
  rcases laterPart (whole.symm.trans parts) member with late | ⟨early, early'⟩
  · obtain ⟨kv', logged, key, _⟩ := sinceThen e' late put'
    have good := heard.last.good kv' (behindSince heard.first.since.begun logged)
    rw [← key] at good
    by_cases sameLen : kv.key.prefixLen = config.subnetLen
    · exact differ (eqOfParts sameIp (good.length.trans sameLen.symm))
    · exact sharedIp sameIp (good.clear kv stored sameLen)
  · obtain ⟨kv₁, stored₁, key₁, _⟩ := fromSnapshot e early put
    obtain ⟨kv₂, stored₂, key₂, _⟩ := fromSnapshot e' early' put'
    have other : kv₂.key ≠ kv₁.key := by
      intro same
      exact differ (key₂.trans (same.trans (key₁.symm.trans subnet)))
    refine sharedIp ?_ (heard.first.safe.apart.disjoint kv₂ stored₂ kv₁ stored₁ other)
    rw [← key₂, ← key₁, subnet, sameIp]

end Heard
end FlannelNg
