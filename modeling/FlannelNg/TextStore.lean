import FlannelNg.HandOver
import FlannelNg.LeaseJson

/-! The store that etcd holds and the plain one. Under keys of text and values of JSON the
registry's calls answer as they do where keys and values are the networks and attributes. -/
namespace FlannelNg
open Cidr Outcome Runs

section Spell
variable {K V : Type} (codec : Codec K V)

def KeyValue.spell (kv : KeyValue Ipv4Network LeaseAttrs) : KeyValue K V :=
  ⟨codec.key kv.key, codec.toVec kv.value, kv.lease⟩

def Event.spell : Event Ipv4Network LeaseAttrs → Event K V
  | .put kv => .put (kv.spell codec)
  | .delete key => .delete (codec.key key)

def Delivery.spell (d : Delivery Ipv4Network LeaseAttrs) : Delivery K V := ⟨d.event.spell codec, d.ttl, d.now⟩

def WatchResponse.spell (resp : WatchResponse Ipv4Network LeaseAttrs) : WatchResponse K V :=
  ⟨resp.events.map (Delivery.spell codec), resp.revision, resp.canceled⟩

/- The answers about the entries that are spelled out. -/
def ReadRpc.pull (rpc : ReadRpc K V) : ReadRpc Ipv4Network LeaseAttrs where
  failed := rpc.failed
  ttl := fun kv => rpc.ttl (kv.spell codec)
  clock := fun kv => rpc.clock (kv.spell codec)

/-- The codec reads the keys that it writes, and the values of attributes that can be stored,
and etcd compares its keys as it would compare the names of the subnets. -/
structure Faithful (Storable : LeaseAttrs → Prop) : Prop where
  key : ∀ sn, codec.extractIpAndSubnet (codec.key sn) = .ok (sn, none)
  value : ∀ attrs, Storable attrs → codec.fromSlice (codec.toVec attrs) = .ok attrs
  before : ∀ a b, codec.before (codec.key a) (codec.key b) = Codec.plain.before a b
  startsWith : ∀ a b, codec.startsWith (codec.key a) (codec.key b) = Codec.plain.startsWith a b

/-- The entries and the log of the one store are those of the plain one, spelled out. -/
structure Spells [DecidableEq K] (Storable : LeaseAttrs → Prop) (plain : Etcd Ipv4Network LeaseAttrs) (db : Etcd K V) : Prop where
  kvs : db.kvs = plain.kvs.map (KeyValue.spell codec)
  log : db.log = plain.log.map (List.map (Event.spell codec))
  stored : ∀ kv ∈ plain.kvs, Storable kv.value
  logged : ∀ kv, .put kv ∈ plain.log.flatten → Storable kv.value

end Spell

section Store
variable {K V : Type} [DecidableEq K] {codec : Codec K V} {Storable : LeaseAttrs → Prop} {db : Etcd K V}
variable {plain : Etcd Ipv4Network LeaseAttrs} {kvs : List (KeyValue Ipv4Network LeaseAttrs)}

omit [DecidableEq K] in
theorem keyInj (faithful : Faithful codec Storable) : Function.Injective codec.key := by
  intro a b same
  have read := faithful.key a
  rw [same, faithful.key b] at read
  exact (Prod.mk.inj (Except.ok.inj read)).1.symm

theorem applySpelled (faithful : Faithful codec Storable) (ev : Event Ipv4Network LeaseAttrs) :
    Etcd.applyEvent codec (kvs.map (KeyValue.spell codec)) (ev.spell codec) =
      (Etcd.applyEvent Codec.plain kvs ev).map (KeyValue.spell codec) := by
  have inj := keyInj faithful
  cases ev with
  | put kv =>
    refine Keyed.insertSortedMap (fun _ => rfl) inj fun a b => ?_
    exact Eq.to_iff (congrArg (· = true) (faithful.before a.key b.key))
  | delete k =>
    simp only [Etcd.applyEvent, Event.spell, List.filter_map]
    refine congrArg (List.map _) (List.filter_congr fun kv _ => ?_)
    simp [KeyValue.spell, inj.eq_iff]

theorem applyAllSpelled (faithful : Faithful codec Storable) (txn : List (Event Ipv4Network LeaseAttrs)) :
    (txn.map (Event.spell codec)).foldl (Etcd.applyEvent codec) (kvs.map (KeyValue.spell codec)) =
      (txn.foldl (Etcd.applyEvent Codec.plain) kvs).map (KeyValue.spell codec) := by
  induction txn generalizing kvs with
  | nil => rfl
  | cons ev rest ih =>
    rw [List.map_cons, List.foldl_cons, List.foldl_cons, applySpelled faithful, ih]

theorem appliedStored {txn : List (Event Ipv4Network LeaseAttrs)} (distinct : Keyed.Distinct KeyValue.key kvs)
    (stored : ∀ kv ∈ kvs, Storable kv.value) (puts : ∀ kv, .put kv ∈ txn → Storable kv.value) :
    ∀ kv ∈ txn.foldl (Etcd.applyEvent Codec.plain) kvs, Storable kv.value := by
  induction txn generalizing kvs with
  | nil => exact stored
  | cons ev rest ih =>
    refine ih (Etcd.distinctApplyEvent _ distinct ev) (fun kv member => ?_) (fun kv mem => puts kv (List.mem_cons_of_mem _ mem))
    rcases applyEventMem distinct member with old | rfl
    · exact stored kv old
    · exact puts kv List.mem_cons_self

theorem spellsCommit {txn : List (Event Ipv4Network LeaseAttrs)} (faithful : Faithful codec Storable)
    (spells : Spells codec Storable plain db) (puts : ∀ kv, .put kv ∈ txn → Storable kv.value) :
    Spells codec Storable (plain.commit Codec.plain txn) (db.commit codec (txn.map (Event.spell codec))) where
  kvs := by
    simp only [Etcd.commit, spells.kvs]
    exact applyAllSpelled faithful txn
  log := by simp [Etcd.commit, spells.log]
  stored := appliedStored plain.distinct spells.stored puts
  logged := by
    intro kv member
    simp only [Etcd.commit, List.flatten_append, List.mem_append, List.flatten_cons, List.flatten_nil, List.append_nil] at member
    rcases member with old | new
    · exact spells.logged kv old
    · exact puts kv new

theorem spellsPut {kv : KeyValue Ipv4Network LeaseAttrs} (faithful : Faithful codec Storable)
    (spells : Spells codec Storable plain db) (storable : Storable kv.value) :
    Spells codec Storable (plain.put Codec.plain kv) (db.put codec (kv.spell codec)) := by
  refine spellsCommit faithful spells fun kv' member => ?_
  cases Event.put.inj (List.mem_singleton.mp member)
  exact storable

theorem spellsGet (faithful : Faithful codec Storable) (spells : Spells codec Storable plain db) (sn : Ipv4Network) :
    db.get (codec.key sn) = (plain.get sn).map (KeyValue.spell codec) := by
  unfold Etcd.get
  rw [spells.kvs]
  exact Keyed.lookupMap (fun _ => rfl) (keyInj faithful)

theorem spellsDelete {p : KeyValue K V → Bool} {q : KeyValue Ipv4Network LeaseAttrs → Bool} (faithful : Faithful codec Storable)
    (spells : Spells codec Storable plain db) (same : ∀ kv, p (kv.spell codec) = q kv) :
    Spells codec Storable (plain.deleteWhere Codec.plain q) (db.deleteWhere codec p) := by
  have any_ : db.kvs.any p = plain.kvs.any q := by
    rw [spells.kvs, List.any_map]
    exact congrArg (List.any plain.kvs) (funext same)
  unfold Etcd.deleteWhere
  rw [any_]
  split
  · have txn : (db.kvs.filter p).map (fun kv => Event.delete kv.key) =
        ((plain.kvs.filter q).map (fun kv => Event.delete kv.key)).map (Event.spell codec) := by
      rw [spells.kvs, List.filter_map, List.map_map, List.map_map, show p ∘ KeyValue.spell codec = q from funext same]
      rfl
    rw [txn]
    exact spellsCommit faithful spells (by simp)
  · exact spells

/- The same answer, and stores that still agree. -/
def Agree {α : Type} (codec : Codec K V) (Storable : LeaseAttrs → Prop) (x : α × Etcd Ipv4Network LeaseAttrs)
    (y : α × Etcd K V) : Prop := y.1 = x.1 ∧ Spells codec Storable x.2 y.2

theorem spellsCompensate {rpc : WriteRpc} {lease : Int} (faithful : Faithful codec Storable)
    (spells : Spells codec Storable plain db) :
    Spells codec Storable (rpc.compensate Codec.plain lease plain) (rpc.compensate codec lease db) := by
  unfold WriteRpc.compensate
  split
  · exact spellsDelete faithful spells (fun _ => rfl)
  · exact spells

theorem spellsPutIfAbsent {kv : KeyValue Ipv4Network LeaseAttrs} (faithful : Faithful codec Storable)
    (spells : Spells codec Storable plain db) (storable : Storable kv.value) :
    Agree codec Storable (plain.putIfAbsent Codec.plain kv) (db.putIfAbsent codec (kv.spell codec)) := by
  have present : (db.get (kv.spell codec).key).isNone = (plain.get kv.key).isNone := by
    rw [show (kv.spell codec).key = codec.key kv.key from rfl, spellsGet faithful spells, Option.isNone_map]
  unfold Etcd.putIfAbsent
  rw [present]
  split
  · exact ⟨rfl, spellsPut faithful spells storable⟩
  · exact ⟨rfl, spells⟩

theorem createAgrees (faithful : Faithful codec Storable) (spells : Spells codec Storable plain db) (sn : Ipv4Network)
    {attrs : LeaseAttrs} (storable : Storable attrs) (rpc : WriteRpc) :
    Agree codec Storable (createSubnet Codec.plain sn attrs rpc plain) (createSubnet codec sn attrs rpc db) := by
  unfold createSubnet
  cases rpc.grant with
  | error message => exact ⟨rfl, spells⟩
  | ok grant =>
    obtain ⟨id, ttl⟩ := grant
    obtain ⟨won, txn⟩ := @spellsPutIfAbsent _ _ _ _ _ _ _ ⟨sn, attrs, id⟩ faithful spells storable
    cases rpc.answer with
    | rejected message => exact ⟨rfl, spellsCompensate faithful spells⟩
    | lost message => exact ⟨rfl, spellsCompensate faithful txn⟩
    | answered =>
      change Agree codec Storable (if (plain.putIfAbsent Codec.plain ⟨sn, attrs, id⟩).1 then _ else _)
        (if (db.putIfAbsent codec (KeyValue.spell codec ⟨sn, attrs, id⟩)).1 then _ else _)
      rw [won]
      split
      · exact ⟨rfl, txn⟩
      · exact ⟨rfl, spellsCompensate faithful txn⟩

theorem updateAgrees (faithful : Faithful codec Storable) (spells : Spells codec Storable plain db) (subnet : Ipv4Network)
    {attrs : LeaseAttrs} (storable : Storable attrs) (rpc : WriteRpc) :
    Agree codec Storable (updateSubnet Codec.plain subnet attrs rpc plain) (updateSubnet codec subnet attrs rpc db) := by
  unfold updateSubnet
  cases rpc.grant with
  | error message => exact ⟨rfl, spells⟩
  | ok grant =>
    obtain ⟨id, ttl⟩ := grant
    have put := @spellsPut _ _ _ _ _ _ _ ⟨subnet, attrs, id⟩ faithful spells storable
    cases rpc.answer with
    | rejected message => exact ⟨rfl, spellsCompensate faithful spells⟩
    | lost message => exact ⟨rfl, spellsCompensate faithful put⟩
    | answered => exact ⟨rfl, put⟩

section Read
variable {rpc : ReadRpc K V}

omit [DecidableEq K] in
theorem leaseSpelled {kv : KeyValue Ipv4Network LeaseAttrs} (faithful : Faithful codec Storable) (storable : Storable kv.value)
    (ttl : Int) (now : SystemTime) : kvToIpLease codec (kv.spell codec) ttl now = kvToIpLease Codec.plain kv ttl now := by
  simp only [kvToIpLease, KeyValue.spell, faithful.key, faithful.value _ storable]
  rfl

omit [DecidableEq K] in
theorem leasesSpelled (faithful : Faithful codec Storable) (storable : ∀ kv ∈ kvs, Storable kv.value) :
    readLeases codec rpc (kvs.map (KeyValue.spell codec)) = readLeases Codec.plain (rpc.pull codec) kvs := by
  induction kvs with
  | nil => rfl
  | cons kv rest ih =>
    have later := ih (fun kv' mem => storable kv' (List.mem_cons_of_mem _ mem))
    simp only [List.map_cons, readLeases, later, leaseSpelled faithful (storable kv List.mem_cons_self)]
    rfl

theorem revisionSpelled (spells : Spells codec Storable plain db) : db.revision = plain.revision := by
  simp [Etcd.revision, spells.log]

theorem snapshotAgrees (faithful : Faithful codec Storable) (spells : Spells codec Storable plain db) :
    leasesWatchReset codec rpc db = leasesWatchReset Codec.plain (rpc.pull codec) plain := by
  have leases := @leasesSpelled _ _ _ _ _ rpc faithful spells.stored
  rw [← spells.kvs] at leases
  unfold leasesWatchReset getSubnets
  rw [leases, revisionSpelled spells, spells.kvs, List.length_map]
  rfl

theorem entryAgrees (faithful : Faithful codec Storable) (spells : Spells codec Storable plain db) (sn : Ipv4Network) :
    getSubnet codec sn rpc db = getSubnet Codec.plain sn (rpc.pull codec) plain := by
  unfold getSubnet
  rw [spellsGet faithful spells, revisionSpelled spells]
  cases found : plain.get sn with
  | none => simp [found, Codec.plain, ReadRpc.pull]
  | some kv =>
    have storable := spells.stored kv (Etcd.getSome found).1
    simp only [Option.map_some, leaseSpelled faithful storable, Codec.plain, id, found, ReadRpc.pull]

end Read

section Watch
variable {ds : List (Delivery Ipv4Network LeaseAttrs)} {responses : List (WatchResponse Ipv4Network LeaseAttrs)}

/- The puts that are delivered can be stored. -/
def DeliversStorable (Storable : LeaseAttrs → Prop) (ds : List (Delivery Ipv4Network LeaseAttrs)) : Prop :=
  ∀ d ∈ ds, ∀ kv, d.event = .put kv → Storable kv.value

omit [DecidableEq K] in
theorem parseSpelled (faithful : Faithful codec Storable) {d : Delivery Ipv4Network LeaseAttrs}
    (storable : ∀ kv, d.event = .put kv → Storable kv.value) :
    parseSubnetWatchResp codec (d.spell codec) = parseSubnetWatchResp Codec.plain d := by
  obtain ⟨event, ttl, now⟩ := d
  cases event with
  | delete k =>
    simp only [parseSubnetWatchResp, Delivery.spell, Event.spell, Event.key, faithful.key]
    rfl
  | put kv =>
    simp only [parseSubnetWatchResp, Delivery.spell, Event.spell, Event.key, KeyValue.spell, faithful.key,
      faithful.value _ (storable kv rfl)]
    rfl

omit [DecidableEq K] in
theorem eventsSpelled (faithful : Faithful codec Storable) (storable : DeliversStorable Storable ds) :
    parseEvents codec (ds.map (Delivery.spell codec)) = parseEvents Codec.plain ds := by
  induction ds with
  | nil => rfl
  | cons d rest ih =>
    rw [List.map_cons, parseEvents, parseEvents, parseSpelled faithful (storable d List.mem_cons_self),
      ih (fun d' mem => storable d' (List.mem_cons_of_mem _ mem))]

omit [DecidableEq K] in
theorem watchSubnetsSpelled (faithful : Faithful codec Storable)
    (storable : ∀ resp ∈ responses, DeliversStorable Storable resp.events) :
    watchSubnets codec (responses.map (WatchResponse.spell codec)) = watchSubnets Codec.plain responses := by
  induction responses with
  | nil => rfl
  | cons resp rest ih =>
    have here := eventsSpelled faithful (storable resp List.mem_cons_self)
    rw [List.map_cons, watchSubnets, watchSubnets, ih (fun resp' mem => storable resp' (List.mem_cons_of_mem _ mem))]
    simp only [WatchResponse.spell, here]
    rfl

omit [DecidableEq K] in
theorem watchSubnetSpelled (faithful : Faithful codec Storable)
    (storable : ∀ resp ∈ responses, DeliversStorable Storable resp.events) :
    watchSubnet codec (responses.map (WatchResponse.spell codec)) = watchSubnet Codec.plain responses := by
  induction responses with
  | nil => rfl
  | cons resp rest ih =>
    have here := eventsSpelled faithful (storable resp List.mem_cons_self)
    rw [List.map_cons, watchSubnet, watchSubnet, ih (fun resp' mem => storable resp' (List.mem_cons_of_mem _ mem))]
    simp only [WatchResponse.spell, here]

end Watch
end Store

/-- A response of a watch: how many of the events it has, its revision, and whether it is canceled. -/
structure WatchPiece where
  count : Nat
  revision : Nat
  canceled : Bool

/-- How etcd serves a watch from its start on: it is refused, or its events come in these pieces
and then the stream fails or goes on. -/
structure WatchRpc (K V : Type) where
  since : Nat
  registered : Nat
  refused : Option String
  pieces : List WatchPiece
  failed : Option String
  answer : Event K V → Option Int × SystemTime

/-- A call of the registry by some node, with the answers of etcd and the clock, or the end of
an entry's time. -/
inductive RegistryCall (K V : Type) where
  | create (sn : Ipv4Network) (attrs : LeaseAttrs) (rpc : WriteRpc)
  | update (subnet : Ipv4Network) (attrs : LeaseAttrs) (rpc : WriteRpc)
  | snapshot (rpc : ReadRpc K V)
  | entry (sn : Ipv4Network) (rpc : ReadRpc K V)
  | watchAll (rpc : WatchRpc K V)
  | watchOwn (sn : Ipv4Network) (rpc : WatchRpc K V)
  | expire (sn : Ipv4Network)

inductive Reply where
  | written (exp : Res SystemTime)
  | snapshot (wr : Res LeaseWatchResult)
  | entry (lease : Res (Option (Lease × Nat)))
  | results (sent : List (List LeaseWatchResult) × Res Unit)
  | batches (sent : List (List LeaseWatchEvent) × Res Unit)
  | expired
  deriving DecidableEq

section Serve
variable {K V : Type} [DecidableEq K] (codec : Codec K V)

def Event.deliver (answer : Event K V → Option Int × SystemTime) (ev : Event K V) : Delivery K V :=
  ⟨ev, (answer ev).1, (answer ev).2⟩

def responsesOf (answer : Event K V → Option Int × SystemTime) : List WatchPiece → List (Event K V) → List (WatchResponse K V)
  | [], _ => []
  | piece :: rest, events =>
    ⟨(events.take piece.count).map (Event.deliver answer), piece.revision, piece.canceled⟩ ::
      responsesOf answer rest (events.drop piece.count)

namespace WatchRpc
variable (rpc : WatchRpc K V)

/- The events of the log that the watch is sent, some of them for a node's own watch. -/
def responses (txns : List (List (Event K V))) (sent : Event K V → Bool) : List (WatchResponse K V) :=
  responsesOf rpc.answer rpc.pieces ((deliveredTxns txns rpc.since rpc.registered txns.length).flatten.filter sent)

/- A watch that is still open when its stream fails ends with the error. -/
def ends {α : Type} (closed : Bool) (sent : α × Res Unit) : α × Res Unit :=
  match closed, rpc.failed with
  | false, some message => (sent.1, sent.2.bind (fun _ => .error (.bail message)))
  | _, _ => sent

end WatchRpc

def serve (db : Etcd K V) : RegistryCall K V → Reply × Etcd K V
  | .create sn attrs rpc => ((createSubnet codec sn attrs rpc db).map .written id)
  | .update subnet attrs rpc => ((updateSubnet codec subnet attrs rpc db).map .written id)
  | .snapshot rpc => (.snapshot (leasesWatchReset codec rpc db), db)
  | .entry sn rpc => (.entry (getSubnet codec sn rpc db), db)
  | .watchAll rpc =>
    match rpc.refused with
    | some message => (.results ([], .error (.bail message)), db)
    | none =>
      -- a canceled response ends the watch of all subnets
      let sent := watchSubnets codec (rpc.responses db.log (fun _ => true))
      (.results (rpc.ends (rpc.pieces.any WatchPiece.canceled) sent), db)
  | .watchOwn sn rpc =>
    match rpc.refused with
    | some message => (.batches ([], .error (.bail message)), db)
    | none =>
      let sent := watchSubnet codec (rpc.responses db.log (fun ev => codec.startsWith ev.key (codec.key sn)))
      (.batches (rpc.ends false sent), db)
  | .expire sn => (.expired, db.expire codec (codec.key sn))

def serveAll (db : Etcd K V) : List (RegistryCall K V) → List Reply × Etcd K V
  | [] => ([], db)
  | call :: rest =>
    let (reply, db) := serve codec db call
    let (replies, db) := serveAll db rest
    (reply :: replies, db)

namespace RegistryCall

/- The call of the plain store with the same answers. -/
def pull : RegistryCall K V → RegistryCall Ipv4Network LeaseAttrs
  | .create sn attrs rpc => .create sn attrs rpc
  | .update subnet attrs rpc => .update subnet attrs rpc
  | .snapshot rpc => .snapshot (rpc.pull codec)
  | .entry sn rpc => .entry sn (rpc.pull codec)
  | .watchAll rpc => .watchAll { rpc with answer := fun ev => rpc.answer (ev.spell codec) }
  | .watchOwn sn rpc => .watchOwn sn { rpc with answer := fun ev => rpc.answer (ev.spell codec) }
  | .expire sn => .expire sn

def Writes (Storable : LeaseAttrs → Prop) : RegistryCall K V → Prop
  | .create _ attrs _ => Storable attrs
  | .update _ attrs _ => Storable attrs
  | _ => True

end RegistryCall

variable {codec} {Storable : LeaseAttrs → Prop} {plain : Etcd Ipv4Network LeaseAttrs} {db : Etcd K V}
variable {txns : List (List (Event Ipv4Network LeaseAttrs))}

omit [DecidableEq K] in
theorem deliveredSpelled (since registered reached : Nat) :
    deliveredTxns (txns.map (List.map (Event.spell codec))) since registered reached =
      (deliveredTxns txns since registered reached).map (List.map (Event.spell codec)) := by
  unfold deliveredTxns
  split <;> simp [List.map_drop, List.map_take]

omit [DecidableEq K] in
theorem piecesSpelled (answer : Event K V → Option Int × SystemTime) (pieces : List WatchPiece)
    (events : List (Event Ipv4Network LeaseAttrs)) :
    responsesOf answer pieces (events.map (Event.spell codec)) =
      (responsesOf (fun ev => answer (ev.spell codec)) pieces events).map (WatchResponse.spell codec) := by
  induction pieces generalizing events with
  | nil => rfl
  | cons piece rest ih =>
    have here : ((events.map (Event.spell codec)).take piece.count).map (Event.deliver answer) =
        ((events.take piece.count).map (Event.deliver (fun ev => answer (ev.spell codec)))).map (Delivery.spell codec) := by
      simp [← List.map_take, Function.comp_def, Event.deliver, Delivery.spell]
    rw [responsesOf, responsesOf, List.map_cons, ← List.map_drop, ih, here]
    rfl

omit [DecidableEq K] in
theorem responsesSpelled {rpc : WatchRpc K V} {sent : Event K V → Bool} {sent' : Event Ipv4Network LeaseAttrs → Bool}
    (same : ∀ ev, sent (ev.spell codec) = sent' ev) :
    rpc.responses (txns.map (List.map (Event.spell codec))) sent =
      (WatchRpc.responses { rpc with answer := fun ev => rpc.answer (ev.spell codec) } txns sent').map
        (WatchResponse.spell codec) := by
  unfold WatchRpc.responses
  rw [deliveredSpelled, List.length_map, ← List.map_flatten, List.filter_map, piecesSpelled]
  have kept : sent ∘ Event.spell codec = sent' := funext same
  rw [kept]

omit [DecidableEq K] in
theorem ownSent (faithful : Faithful codec Storable) (sn : Ipv4Network) (ev : Event Ipv4Network LeaseAttrs) :
    codec.startsWith (ev.spell codec).key (codec.key sn) = Codec.plain.startsWith ev.key (Codec.plain.key sn) := by
  have key : (ev.spell codec).key = codec.key ev.key := by cases ev <;> rfl
  rw [key, faithful.startsWith]
  rfl

omit [DecidableEq K] in
/- What a piece holds is of the events. -/
theorem pieceEvents {answer : Event K V → Option Int × SystemTime} {pieces : List WatchPiece} {events : List (Event K V)}
    {resp : WatchResponse K V} {d : Delivery K V} (member : resp ∈ responsesOf answer pieces events) (inside : d ∈ resp.events) :
    d.event ∈ events := by
  induction pieces generalizing events with
  | nil => contradiction
  | cons piece rest ih =>
    rcases List.mem_cons.mp member with rfl | later
    · obtain ⟨ev, mem, rfl⟩ := List.mem_map.mp inside
      exact List.mem_of_mem_take mem
    · exact List.mem_of_mem_drop (ih later)

omit [DecidableEq K] in
theorem responsesStorable {rpc : WatchRpc Ipv4Network LeaseAttrs} {sent : Event Ipv4Network LeaseAttrs → Bool}
    (logged : ∀ kv, .put kv ∈ txns.flatten → Storable kv.value) :
    ∀ resp ∈ rpc.responses txns sent, DeliversStorable Storable resp.events := by
  intro resp member d inside kv put
  have delivered := (List.mem_filter.mp (pieceEvents member inside)).1
  refine logged kv (put ▸ flattenSub (fun txn mem => ?_) delivered)
  unfold deliveredTxns at mem
  split at mem <;> exact List.mem_of_mem_take (List.mem_of_mem_drop mem)

theorem serveAgrees (faithful : Faithful codec Storable) (spells : Spells codec Storable plain db) {call : RegistryCall K V}
    (writes : call.Writes Storable) :
    Agree codec Storable (serve Codec.plain plain (call.pull codec)) (serve codec db call) := by
  cases call with
  | create sn attrs rpc =>
    obtain ⟨same, after⟩ := createAgrees faithful spells sn writes rpc
    exact ⟨congrArg Reply.written same, after⟩
  | update subnet attrs rpc =>
    obtain ⟨same, after⟩ := updateAgrees faithful spells subnet writes rpc
    exact ⟨congrArg Reply.written same, after⟩
  | snapshot rpc => exact ⟨congrArg Reply.snapshot (snapshotAgrees faithful spells), spells⟩
  | entry sn rpc => exact ⟨congrArg Reply.entry (entryAgrees faithful spells sn), spells⟩
  | watchAll rpc =>
    have sent := @watchSubnetsSpelled _ _ codec _ _ faithful
      (@responsesStorable _ _ { rpc with answer := fun ev => rpc.answer (ev.spell codec) } (fun _ => true) spells.logged)
    rw [← @responsesSpelled _ _ codec _ rpc (fun _ => true) _ (fun _ => rfl), ← spells.log] at sent
    simp only [serve, RegistryCall.pull]
    cases rpc.refused with
    | some message => exact ⟨rfl, spells⟩
    | none => exact ⟨congrArg (fun x => Reply.results (rpc.ends (rpc.pieces.any WatchPiece.canceled) x)) sent, spells⟩
  | watchOwn sn rpc =>
    have sent := @watchSubnetSpelled _ _ codec _ _ faithful
      (@responsesStorable _ _ { rpc with answer := fun ev => rpc.answer (ev.spell codec) }
        (fun ev => Codec.plain.startsWith ev.key (Codec.plain.key sn)) spells.logged)
    rw [← @responsesSpelled _ _ codec _ rpc (fun ev => codec.startsWith ev.key (codec.key sn)) _ (ownSent faithful sn),
      ← spells.log] at sent
    simp only [serve, RegistryCall.pull]
    cases rpc.refused with
    | some message => exact ⟨rfl, spells⟩
    | none => exact ⟨congrArg (fun x => Reply.batches (rpc.ends false x)) sent, spells⟩
  | expire sn =>
    exact ⟨rfl, spellsDelete faithful spells fun kv => decide_eq_decide.mpr (keyInj faithful).eq_iff⟩

theorem serveAllAgrees (faithful : Faithful codec Storable) (spells : Spells codec Storable plain db)
    {calls : List (RegistryCall K V)} (writes : ∀ call ∈ calls, call.Writes Storable) :
    Agree codec Storable (serveAll Codec.plain plain (calls.map (RegistryCall.pull codec))) (serveAll codec db calls) := by
  induction calls generalizing plain db with
  | nil => exact ⟨rfl, spells⟩
  | cons call rest ih =>
    obtain ⟨reply, after⟩ := serveAgrees faithful spells (writes call List.mem_cons_self)
    obtain ⟨replies, last⟩ := ih after (fun call' mem => writes call' (List.mem_cons_of_mem _ mem))
    refine ⟨?_, last⟩
    simp only [List.map_cons, serveAll]
    rw [reply, replies]

end Serve

section Text
variable {V : Type} (crates : TextCrates) (text : JsonText V) (ipv6 : Ipv6Text) (pre : List Char)

/- The registry as it is: keys below the prefix and values of JSON. -/
def etcdCodec : Codec (List Char) V := textCodec crates (attrsValues text ipv6) pre

theorem etcdFaithful : Faithful (etcdCodec crates text ipv6 pre) (LeaseAttrs.Storable text ipv6) where
  key := TextCrates.extractSubnetKey crates pre
  value := by
    intro attrs storable
    change (LeaseAttrs.fromSlice text ipv6 (attrs.toVec text ipv6)).mapError Stop.bail = _
    rw [(storedReadIff storable.readsBack).mpr storable.set]
    rfl
  before := fun _ _ => textBefore
  startsWith := fun _ _ => textStartsWith

theorem etcdRefines {plain : Etcd Ipv4Network LeaseAttrs} {db : Etcd (List Char) V} {calls : List (RegistryCall (List Char) V)}
    (spells : Spells (etcdCodec crates text ipv6 pre) (LeaseAttrs.Storable text ipv6) plain db)
    (writes : ∀ call ∈ calls, call.Writes (LeaseAttrs.Storable text ipv6)) :
    (serveAll (etcdCodec crates text ipv6 pre) db calls).1 =
        (serveAll Codec.plain plain (calls.map (RegistryCall.pull (etcdCodec crates text ipv6 pre)))).1 ∧
      Spells (etcdCodec crates text ipv6 pre) (LeaseAttrs.Storable text ipv6)
        (serveAll Codec.plain plain (calls.map (RegistryCall.pull (etcdCodec crates text ipv6 pre)))).2
        (serveAll (etcdCodec crates text ipv6 pre) db calls).2 :=
  serveAllAgrees (etcdFaithful crates text ipv6 pre) spells writes

private def shortAttrs (ip : Ipv4Addr) : LeaseAttrs := { publicIp := ip }

private def shortText (ip : String) : String := "\x7b\"PublicIP\":\"" ++ ip ++ "\"\x7d"

/- What serde_json makes of the attributes of two nodes. -/
private def shortTexts : JsonText String where
  toVec := fun v => if v = (shortAttrs 7).toJson .plain then shortText "0.0.0.7" else shortText "0.0.0.8"
  fromSlice := fun bytes =>
    if bytes = shortText "0.0.0.7" then .ok ((shortAttrs 7).toJson .plain)
    else if bytes = shortText "0.0.0.8" then .ok ((shortAttrs 8).toJson .plain)
    else .error "expected value"

private theorem shortStorable : LeaseAttrs.Storable shortTexts .plain (shortAttrs 7) ∧
    LeaseAttrs.Storable shortTexts .plain (shortAttrs 8) := by
  have other : (shortAttrs 8).toJson .plain ≠ (shortAttrs 7).toJson .plain := by decide
  have apart : shortText "0.0.0.8" ≠ shortText "0.0.0.7" := by decide
  refine ⟨⟨nofun, ?_⟩, nofun, ?_⟩
  · simp only [JsonText.ReadsBack, shortTexts, if_true]
  · simp only [JsonText.ReadsBack, shortTexts, if_neg other, if_neg apart, if_true]

private def shortWatch (refused : Option String) (pieces : List WatchPiece) : WatchRpc (List Char) String where
  since := 1
  registered := 1
  refused
  pieces
  failed := some "the stream is broken"
  answer := fun _ => (some 100, 0)

/- One watch has two events in one response before its stream breaks, one is canceled. -/
private def textCalls : List (RegistryCall (List Char) String) :=
  [.create (cidr 0 24) (shortAttrs 7) ⟨.ok (1, 86400), .answered, true, 0⟩,
    .create (cidr 0x100 24) (shortAttrs 8) ⟨.ok (2, 86400), .answered, true, 0⟩, .snapshot (ReadRpc.quiet 100 0),
    .expire (cidr 0 24), .watchAll (shortWatch none [⟨2, 4, false⟩, ⟨1, 4, false⟩]),
    .watchOwn (cidr 0x100 24) (shortWatch none [⟨0, 4, true⟩, ⟨1, 4, false⟩]),
    .watchAll (shortWatch (some "etcd is not reached") [])]

theorem etcdServesText :
    (serveAll (etcdCodec .plain shortTexts .plain ['/', 'p']) Etcd.empty textCalls).1 =
        (serveAll Codec.plain Etcd.empty (textCalls.map (RegistryCall.pull (etcdCodec .plain shortTexts .plain ['/', 'p'])))).1 ∧
      Spells (etcdCodec .plain shortTexts .plain ['/', 'p']) (LeaseAttrs.Storable shortTexts .plain)
        (serveAll Codec.plain Etcd.empty (textCalls.map (RegistryCall.pull (etcdCodec .plain shortTexts .plain ['/', 'p'])))).2
        (serveAll (etcdCodec .plain shortTexts .plain ['/', 'p']) Etcd.empty textCalls).2 :=
  etcdRefines .plain shortTexts .plain ['/', 'p'] ⟨rfl, rfl, nofun, nofun⟩ (by
    obtain ⟨first, second⟩ := shortStorable
    simp only [textCalls, List.forall_mem_cons]
    exact ⟨first, second, trivial, trivial, trivial, trivial, trivial, List.forall_mem_nil _⟩)

end Text
end FlannelNg
