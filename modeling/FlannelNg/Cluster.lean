import FlannelNg.Acquire
import FlannelNg.Changes
import FlannelNg.Lib.Runs

/-! Nodes that share one etcd. Each acquires a lease, then renews it while a watch of
its own subnet feeds it events; the steps of different nodes interleave freely and
entries may expire between any two of them. Sleeping times are left out: a renewal
may come at any moment, and a node may stop at any moment. -/
namespace FlannelNg
open Cidr Outcome Runs

abbrev Store := Etcd Ipv4Network LeaseAttrs

/- The watch of a node's own subnet: the position in the log that it has read up to,
and the batches received but not yet handled. -/
structure OwnWatch where
  subnet : Ipv4Network
  next : Nat
  live : Bool
  inbox : List (List LeaseWatchEvent)

inductive Local where
  | idle
  | started (config : Config) (attrs : LeaseAttrs)
  | deciding (attrs : LeaseAttrs) (choice : Choice)
  | holding (lease : Lease) (watch : Option OwnWatch)

inductive NodeAction where
  | start (attrs : LeaseAttrs)
  | read (rpc : ReadRpc Ipv4Network LeaseAttrs) (fuel pick : Nat)
  | write (rpc : WriteRpc)
  | renew (rpc : WriteRpc)
  | watch (rpc : ReadRpc Ipv4Network LeaseAttrs)
  | fetch (count : Nat) (answer : Event Ipv4Network LeaseAttrs → Option Int × SystemTime)
  | deliver
  | restart

/- A batch in the renew loop: a put replaces the lease, a delete ends the loop. -/
def follow : Lease → List LeaseWatchEvent → Option Lease
  | lease, [] => some lease
  | _, e :: rest =>
    match e.eventType with
    | .put => follow e.lease rest
    | .delete => none

def watchLease (lease : Lease) (rpc : ReadRpc Ipv4Network LeaseAttrs) (db : Store) : OwnWatch :=
  match getSubnet Codec.plain lease.subnet rpc db with
  | .ok (some (l, idx)) => ⟨lease.subnet, idx - 2, true, [[⟨l, .put⟩]]⟩
  | _ => ⟨lease.subnet, 0, false, []⟩

namespace OwnWatch

/- The next transactions of the log, as far as they are on keys that start with the own key. -/
def deliveries (w : OwnWatch) (count : Nat) (answer : Event Ipv4Network LeaseAttrs → Option Int × SystemTime)
    (db : Store) : List (Delivery Ipv4Network LeaseAttrs) :=
  (((db.log.drop w.next).take count).flatten.filter (fun ev => Codec.plain.startsWith ev.key w.subnet)).map
    (fun ev => ⟨ev, (answer ev).1, (answer ev).2⟩)

def fetch (w : OwnWatch) (count : Nat) (answer : Event Ipv4Network LeaseAttrs → Option Int × SystemTime)
    (db : Store) : OwnWatch :=
  let (sent, ended) := watchSubnet Codec.plain [⟨w.deliveries count answer db, db.revision, false⟩]
  { w with next := w.next + min count (db.log.length - w.next), live := ended.isOk, inbox := w.inbox ++ sent }

end OwnWatch

def nodeStep (build : Build) (stored : Res Config) (ip : Ipv4Addr) (db : Store) : Local → NodeAction → Local × Store
  | .idle, .start attrs =>
    match getNetworkConfig build stored with
    | .ok config => (.started config { attrs with publicIp := ip }, db)
    | .error _ => (.idle, db)
  | .started config attrs, .read rpc fuel pick =>
    match decideLease Codec.plain build fuel config attrs.publicIp rpc pick db with
    | .ok choice => (.deciding attrs choice, db)
    | .error _ => (.idle, db)
  | .deciding attrs choice, .write rpc =>
    match commitChoice Codec.plain attrs rpc choice db with
    | (.ok lease, db) => (.holding lease none, db)
    | (.error _, db) => (.idle, db)
  | .holding lease w, .renew rpc =>
    match renewLease Codec.plain lease rpc db with
    | (.ok lease, db) => (.holding lease w, db)
    | (.error _, db) => (.holding lease w, db)
  | .holding lease none, .watch rpc => (.holding lease (some (watchLease lease rpc db)), db)
  | .holding lease (some w), .fetch count answer =>
    if w.live then (.holding lease (some (w.fetch count answer db)), db) else (.holding lease (some w), db)
  | .holding lease (some w), .deliver =>
    match w.inbox with
    | [] => (.holding lease (some w), db)
    | batch :: rest =>
      match follow lease batch with
      | some lease => (.holding lease (some { w with inbox := rest }), db)
      | none => (.idle, db)
  | _, .restart => (.idle, db)
  | l, _ => (l, db)

/-- A call of `acquire_lease` is the steps of a node up to its write, with what others
do to the store between them. -/
theorem acquiresInSteps {build stored ip attrs rpc fuel pick write lease db after}
    {before meanwhile : List (Interference Ipv4Network LeaseAttrs)} :
    acquireLease Codec.plain build fuel stored { attrs with publicIp := ip }
        (fun _ => ⟨before, rpc, pick, meanwhile, write⟩) db = (.ok lease, after) ↔
      ∃ started deciding, nodeStep build stored ip db .idle (.start attrs) = (started, db) ∧
        nodeStep build stored ip (before.foldl (interfere Codec.plain) db) started (.read rpc fuel pick) =
          (deciding, before.foldl (interfere Codec.plain) db) ∧
        nodeStep build stored ip (meanwhile.foldl (interfere Codec.plain) (before.foldl (interfere Codec.plain) db))
          deciding (.write write) = (.holding lease none, after) := by
  cases accepted : getNetworkConfig build stored with
  | error stop => simp [acquireLease, nodeStep, accepted]
  | ok config =>
    rw [acquireIsFirst accepted]
    cases decided : decideLease Codec.plain build fuel config ip rpc pick (before.foldl (interfere Codec.plain) db) with
    | error stop => simp [tryAcquireLease, nodeStep, accepted, decided]
    | ok choice =>
      rcases written : commitChoice Codec.plain { attrs with publicIp := ip } write choice
        (meanwhile.foldl (interfere Codec.plain) (before.foldl (interfere Codec.plain) db)) with ⟨_ | won, db'⟩ <;>
        simp [tryAcquireLease, nodeStep, accepted, decided, written]

structure Cluster (N : Type) where
  stored : Res Config
  db : Store
  settled : Settled db
  node : N → Local

inductive Action (N : Type) where
  | configure (stored : Res Config)
  | expire (key : Ipv4Network)
  | act (n : N) (action : NodeAction)

inductive Moves (build : Build) (stored : Res Config) (ip : Ipv4Addr) (db : Store) :
    Local → NodeAction → Local → Store → Prop where
  | stay {l a} : Moves build stored ip db l a l db
  | stop {l a} : Moves build stored ip db l a .idle db
  | start {attrs config} (accepted : getNetworkConfig build stored = .ok config) :
      Moves build stored ip db .idle (.start attrs) (.started config { attrs with publicIp := ip }) db
  | read {config attrs rpc fuel pick choice}
      (chosen : decideLease Codec.plain build fuel config attrs.publicIp rpc pick db = .ok choice) :
      Moves build stored ip db (.started config attrs) (.read rpc fuel pick) (.deciding attrs choice) db
  | won {attrs choice rpc lease after} (ok : commitChoice Codec.plain attrs rpc choice db = (.ok lease, after)) :
      Moves build stored ip db (.deciding attrs choice) (.write rpc) (.holding lease none) after
  | lost {attrs choice rpc stop after} (failed : commitChoice Codec.plain attrs rpc choice db = (.error stop, after)) :
      Moves build stored ip db (.deciding attrs choice) (.write rpc) .idle after
  | renewed {lease w rpc next after} (ok : renewLease Codec.plain lease rpc db = (.ok next, after)) :
      Moves build stored ip db (.holding lease w) (.renew rpc) (.holding next w) after
  | unrenewed {lease w rpc stop after} (failed : renewLease Codec.plain lease rpc db = (.error stop, after)) :
      Moves build stored ip db (.holding lease w) (.renew rpc) (.holding lease w) after
  | watching {lease rpc} :
      Moves build stored ip db (.holding lease none) (.watch rpc) (.holding lease (some (watchLease lease rpc db))) db
  | fetched {lease w count answer} (live : w.live = true) :
      Moves build stored ip db (.holding lease (some w)) (.fetch count answer)
        (.holding lease (some (w.fetch count answer db))) db
  | delivered {lease w batch rest next} (received : w.inbox = batch :: rest) (followed : follow lease batch = some next) :
      Moves build stored ip db (.holding lease (some w)) .deliver (.holding next (some { w with inbox := rest })) db

theorem nodeMoves (build : Build) (stored : Res Config) (ip : Ipv4Addr) (db : Store) (l : Local) (a : NodeAction) :
    Moves build stored ip db l a (nodeStep build stored ip db l a).1 (nodeStep build stored ip db l a).2 := by
  unfold nodeStep
  split
  · split
    · exact .start (by assumption)
    · exact .stay
  · split
    · exact .read (by assumption)
    · exact .stop
  · split
    · exact .won (by assumption)
    · exact .lost (by assumption)
  · split
    · exact .renewed (by assumption)
    · exact .unrenewed (by assumption)
  · exact .watching
  · split
    · exact .fetched (by assumption)
    · exact .stay
  · split
    · exact .stay
    · split
      · exact .delivered (by assumption) (by assumption)
      · exact .stop
  · exact .stop
  · exact .stay

inductive Puts (db : Store) : Local → NodeAction → KeyValue Ipv4Network LeaseAttrs → Prop where
  | reuse {attrs lease rpc id} : Puts db (.deciding attrs (.reuse lease)) (.write rpc) ⟨lease.subnet, attrs, id⟩
  | create {attrs sn rpc id} (applies : rpc.applies = true) (absent : db.get sn = none) :
      Puts db (.deciding attrs (.create sn)) (.write rpc) ⟨sn, attrs, id⟩
  | renew {lease w rpc id} : Puts db (.holding lease w) (.renew rpc) ⟨lease.subnet, lease.attrs, id⟩

section Moves
variable {build : Build} {stored : Res Config} {ip : Ipv4Addr} {db after : Store} {l l' : Local} {a : NodeAction}
variable {attrs : LeaseAttrs} {rpc : WriteRpc}

theorem commitChanged {choice result} (ok : commitChoice Codec.plain attrs rpc choice db = (result, after)) :
    Changed Codec.plain (Puts db (.deciding attrs choice) (.write rpc)) db after := by
  cases choice with
  | reuse lease =>
    cases (Prod.mk.inj ok).2
    refine changedMono ?_ (updateChanged lease.subnet attrs rpc db)
    rintro ⟨key, value, id⟩ ⟨rfl, rfl, _⟩
    exact .reuse
  | create sn =>
    cases (Prod.mk.inj ok).2
    refine changedMono ?_ (createChanged sn attrs rpc db)
    rintro ⟨key, value, id⟩ ⟨rfl, rfl, applies, absent⟩
    exact .create applies absent

theorem renewChanged {lease w result} (ok : renewLease Codec.plain lease rpc db = (result, after)) :
    Changed Codec.plain (Puts db (.holding lease w) (.renew rpc)) db after := by
  cases (Prod.mk.inj ok).2
  refine changedMono ?_ (updateChanged lease.subnet lease.attrs rpc db)
  rintro ⟨key, value, id⟩ ⟨rfl, rfl, _⟩
  exact .renew

theorem movesChanged (moves : Moves build stored ip db l a l' after) :
    Changed Codec.plain (Puts db l a) db after := by
  cases moves with
  | won ok => exact commitChanged ok
  | lost failed => exact commitChanged failed
  | renewed ok => exact renewChanged ok
  | unrenewed failed => exact renewChanged failed
  | stay | stop | start | read | watching | fetched | delivered => exact .same

theorem renewKeeps {lease next} (ok : renewLease Codec.plain lease rpc db = (.ok next, after)) :
    next.subnet = lease.subnet ∧ next.attrs = lease.attrs := by
  unfold renewLease at ok
  cases written : updateSubnet Codec.plain lease.subnet lease.attrs rpc db with
  | mk result store =>
    rw [written] at ok
    cases result with
    | error stop => simp [Except.map] at ok
    | ok exp =>
      cases Except.ok.inj (Prod.mk.inj ok).1
      exact ⟨rfl, rfl⟩

end Moves

namespace OwnWatch

def Holds (P : Lease → Prop) (w : OwnWatch) : Prop :=
  ∀ batch ∈ w.inbox, ∀ e ∈ batch, e.eventType = .put → P e.lease

variable {P : Lease → Prop} {w : OwnWatch} {db : Store}

@[simp] theorem fetchSubnet {count answer} : (w.fetch count answer db).subnet = w.subnet := rfl

theorem fetchNext {count answer} : w.next ≤ (w.fetch count answer db).next := Nat.le_add_right _ _

theorem deliveriesPut {count answer d kv} (member : d ∈ w.deliveries count answer db) (put : d.event = .put kv) :
    .put kv ∈ (db.log.drop w.next).flatten ∧ Codec.plain.startsWith kv.key w.subnet = true := by
  obtain ⟨ev, mem, rfl⟩ := List.mem_map.mp member
  obtain ⟨mem, start⟩ := List.mem_filter.mp mem
  cases put
  obtain ⟨txn, taken, inside⟩ := List.mem_flatten.mp mem
  exact ⟨List.mem_flatten.mpr ⟨txn, List.mem_of_mem_take taken, inside⟩, start⟩

theorem fetchHolds {count answer} (holds : w.Holds P)
    (log : ∀ kv, .put kv ∈ (db.log.drop w.next).flatten → Codec.plain.startsWith kv.key w.subnet = true →
      ∀ lease, lease.subnet = kv.key → lease.attrs = kv.value → P lease) :
    (w.fetch count answer db).Holds P := by
  intro batch member e inside put
  have received : batch ∈ w.inbox ∨
      batch ∈ (watchSubnet Codec.plain [⟨w.deliveries count answer db, db.revision, false⟩]).1 :=
    List.mem_append.mp member
  rcases received with old | new
  · exact holds batch old e inside put
  · obtain ⟨resp, mem, parsed⟩ := watchedBatch new
    cases List.mem_singleton.mp mem
    obtain ⟨d, delivered, made⟩ := parsedSound parsed inside
    obtain ⟨kv, event, subnet, attrs⟩ := plainPut made put
    obtain ⟨behind, start⟩ := deliveriesPut delivered event
    exact log kv behind start e.lease subnet attrs

theorem followed {lease next batch} (followed : follow lease batch = some next) (held : P lease)
    (events : ∀ e ∈ batch, e.eventType = .put → P e.lease) : P next := by
  induction batch generalizing lease with
  | nil => exact Option.some.inj followed ▸ held
  | cons e rest ih =>
    unfold follow at followed
    split at followed <;> try contradiction
    rename_i put
    exact ih followed (events e List.mem_cons_self put) (fun e' mem => events e' (List.mem_cons_of_mem _ mem))

theorem watchHolds {lease rpc} : (watchLease lease rpc db).Holds
    (fun l => ∃ kv, db.get lease.subnet = some kv ∧ l.subnet = kv.key ∧ l.attrs = kv.value) := by
  unfold watchLease
  intro batch member e inside put
  split at member
  · rename_i l idx ok
    obtain ⟨_, kv, found, made⟩ := getSubnetSource ok
    cases List.mem_singleton.mp member
    cases List.mem_singleton.mp inside
    exact ⟨kv, found, plainLease made⟩
  · simp at member

theorem watchNext {lease rpc} (live : (watchLease lease rpc db).live = true) :
    (watchLease lease rpc db).next = db.log.length - 1 ∧ ∃ kv, db.get lease.subnet = some kv := by
  unfold watchLease at live ⊢
  split at live <;> try contradiction
  rename_i l idx ok
  obtain ⟨rfl, kv, found, _⟩ := getSubnetSource ok
  exact ⟨by simp only [Etcd.revision]; omega, kv, found⟩

theorem newestStored {kv : KeyValue Ipv4Network LeaseAttrs} (settled : Settled db)
    (member : .put kv ∈ (db.log.drop (db.log.length - 1)).flatten) : db.get kv.key = some kv := by
  rcases List.eq_nil_or_concat db.log with empty | ⟨before, txn, log⟩
  · simp [empty] at member
  · refine settled txn (by simp [log]) kv ?_
    simpa [log] using member

theorem watchKeeps {lease rpc} : (watchLease lease rpc db).subnet = lease.subnet := by
  unfold watchLease
  split <;> rfl

end OwnWatch

section Step
variable {N : Type} [DecidableEq N] (build : Build) (publicIp : N → Ipv4Addr)

def step (c : Cluster N) : Action N → Cluster N
  | .configure stored => { c with stored }
  | .expire key => { c with db := c.db.expire Codec.plain key, settled := settledDelete c.settled }
  | .act n a => {
      stored := c.stored
      db := (nodeStep build c.stored (publicIp n) c.db (c.node n) a).2
      settled := changedSettled (movesChanged (nodeMoves build c.stored (publicIp n) c.db (c.node n) a)) c.settled
      node := Function.update c.node n (nodeStep build c.stored (publicIp n) c.db (c.node n) a).1 }

variable {build publicIp} {c : Cluster N} {n m : N} {x : NodeAction}

theorem stepAct (n : N) (x : NodeAction) : ∃ l, (step build publicIp c (.act n x)).node = Function.update c.node n l ∧
    Moves build c.stored (publicIp n) c.db (c.node n) x l (step build publicIp c (.act n x)).db :=
  ⟨_, rfl, nodeMoves build c.stored (publicIp n) c.db (c.node n) x⟩

theorem stepChanged (a : Action N) :
    Changed Codec.plain (fun kv => ∃ n x, a = .act n x ∧ Puts c.db (c.node n) x kv) c.db (step build publicIp c a).db := by
  cases a with
  | configure stored => exact .same
  | expire key => exact .delete .same
  | act n x =>
    obtain ⟨l, _, moves⟩ := @stepAct N _ build publicIp c n x
    exact changedMono (fun kv puts => ⟨n, x, rfl, puts⟩) (movesChanged moves)

end Step

/- A node that holds a lease has written since the log had that length, and its watch
begins no earlier. -/
def LocalSince (base : Nat) (db : Store) : Local → Prop
  | .holding _ none => base < db.log.length
  | .holding _ (some w) => w.live = true → base ≤ w.next
  | _ => True

structure Since {N : Type} (base : Nat) (c : Cluster N) : Prop where
  begun : base ≤ c.db.log.length
  nodes : ∀ n, LocalSince base c.db (c.node n)

section Since
variable {N : Type} [DecidableEq N] {build : Build} {publicIp : N → Ipv4Addr} {base : Nat} {db after : Store} {l : Local}
variable {c : Cluster N}

omit [DecidableEq N] in
theorem sinceIdle (idle : ∀ n, c.node n = .idle) : Since c.db.log.length c :=
  ⟨Nat.le_refl _, fun n => idle n ▸ trivial⟩

theorem behindSince {next : Nat} {kv : KeyValue Ipv4Network LeaseAttrs} (since : base ≤ next)
    (behind : .put kv ∈ (db.log.drop next).flatten) : .put kv ∈ (db.log.drop base).flatten := by
  obtain ⟨txn, later, inside⟩ := List.mem_flatten.mp behind
  exact List.mem_flatten.mpr ⟨txn, (List.drop_sublist_drop_left _ since).subset later, inside⟩

theorem localSinceLonger (longer : db.log.length ≤ after.log.length) (since : LocalSince base db l) :
    LocalSince base after l := by
  cases l with
  | idle | started | deciding => trivial
  | holding lease w =>
    cases w with
    | none => exact Nat.lt_of_lt_of_le since longer
    | some w => exact since

theorem changedLonger {P} (changed : Changed Codec.plain P db after) : db.log.length ≤ after.log.length := by
  obtain ⟨txns, log, _⟩ := changedLog changed
  rw [log, List.length_append]
  exact Nat.le_add_right _ _

theorem movesSince {stored ip l' x} (begun : base ≤ db.log.length) (moves : Moves build stored ip db l x l' after)
    (since : LocalSince base db l) : LocalSince base after l' := by
  have kept := localSinceLonger (changedLonger (movesChanged moves)) since
  cases moves with
  | stay => exact since
  | stop | lost | start | read => trivial
  | won ok =>
    obtain ⟨_, _, _, id, rfl⟩ := committed ok
    have longer : base < db.log.length + 1 := Nat.lt_succ_of_le begun
    simpa [LocalSince, Etcd.logPut] using longer
  | @renewed lease w =>
    cases w with
    | none => exact kept
    | some w => exact kept
  | unrenewed => exact kept
  | watching =>
    intro live
    have written : base < db.log.length := since
    rw [(OwnWatch.watchNext live).1]
    omega
  | fetched live => exact fun _ => Nat.le_trans (since live) OwnWatch.fetchNext
  | delivered => exact since

theorem stepSince (a : Action N) (since : Since base c) : Since base (step build publicIp c a) := by
  have longer := changedLonger (@stepChanged N _ build publicIp c a)
  refine ⟨Nat.le_trans since.begun longer, ?_⟩
  cases a with
  | configure stored => exact since.nodes
  | expire key => exact fun n => localSinceLonger longer (since.nodes n)
  | act n x =>
    obtain ⟨l, node, moves⟩ := @stepAct N _ build publicIp c n x
    intro m
    rw [node]
    by_cases same : m = n
    · subst same
      rw [Function.update_self]
      exact movesSince since.begun moves (since.nodes m)
    · rw [Function.update_of_ne same]
      exact localSinceLonger longer (since.nodes m)

end Since

/- Two nodes, what one does up to the write, and its write. -/
def addressOf (n : Bool) : Ipv4Addr := if n then 2 else 1

theorem addressesDiffer : Function.Injective addressOf := by
  intro n m
  cases n <;> cases m <;> decide

def choosing (n : Bool) : List (Action Bool) := [.act n (.start {}), .act n (.read (ReadRpc.quiet 100 0) 9 0)]

def writing (n : Bool) (id : Int) : Action Bool := .act n (.write (WriteRpc.quiet id 0))

def quietCluster (db : Store) (settled : Settled db) : Cluster Bool where
  stored := .ok smallConfig
  db := db
  settled := settled
  node := fun _ => .idle

end FlannelNg
