import FlannelNg.Changes
import FlannelNg.WatchReplay

/-! From the snapshot to the watch. The watch starts at the revision of the snapshot,
so it replays the newest transaction and misses none; after an empty snapshot it
starts at revision 0, which means from its registration on. -/
namespace FlannelNg
open Cidr Outcome Replay Runs

section HandOver
variable {K V : Type} [DecidableEq K] (codec : Codec K V)

/- `watch_leases_inner`: the snapshot, then what the watch sends for the responses. -/
def watchLeasesInner (rpc : ReadRpc K V) (db : Etcd K V) (responses : List (WatchResponse K V)) :
    Res (List LeaseWatchResult) := do
  let wr ← leasesWatchReset codec rpc db
  return wr :: (watchSubnets codec responses).1.flatten

def storeAfter (txns : List (List (Event K V))) : Etcd K V := txns.foldl (fun db txn => db.commit codec txn) Etcd.empty

/-- What etcd delivers, up to the revision of the store after `reached` transactions,
to a watch that starts at `since` and is registered after `registered` transactions. -/
def deliveredTxns (txns : List (List (Event K V))) (since registered reached : Nat) : List (List (Event K V)) :=
  if since = 0 then (txns.take reached).drop registered else (txns.take reached).drop (since - 2)

variable (subnetOf : K → Ipv4Network) (attrsOf : V → LeaseAttrs)

def Event.change : Event K V → Change Ipv4Network LeaseAttrs
  | .put kv => .put (subnetOf kv.key) (attrsOf kv.value)
  | .delete k => .delete (subnetOf k)

def storeView (kvs : List (KeyValue K V)) : View := fun s =>
  (Keyed.lookup (fun kv => subnetOf kv.key) s kvs).map (fun kv => attrsOf kv.value)

/- Keys and values are well formed, and distinct keys denote distinct subnets. -/
structure WellFormed (events : List (Event K V)) : Prop where
  keys : ∀ ev ∈ events, ∃ sn6, codec.extractIpAndSubnet ev.key = .ok (subnetOf ev.key, sn6)
  values : ∀ kv, .put kv ∈ events → codec.fromSlice kv.value = .ok (attrsOf kv.value)
  distinct : ∀ ev ∈ events, ∀ ev' ∈ events, subnetOf ev.key = subnetOf ev'.key → ev.key = ev'.key

/- The TTL query for an entry is answered with a value that can be added to the clock. -/
def Answered (ttl : Option Int) (now : SystemTime) : Prop :=
  ∃ secs : Nat, ttl = some secs ∧ now / SystemTime.nanos + secs < 2 ^ 63

variable {codec subnetOf attrsOf} {events : List (Event K V)} {kvs : List (KeyValue K V)}

theorem answeredExp {ttl now} (answered : Answered ttl now) :
    ∃ secs exp, ttl = some secs ∧ ¬secs < 0 ∧ now.addSecs (asU64 secs) = .ok exp := by
  obtain ⟨secs, rfl, small⟩ := answered
  have below : secs < 2 ^ 63 := Nat.lt_of_le_of_lt (Nat.le_add_left _ _) small
  have same : asU64 secs = secs := by
    unfold asU64
    omega
  exact ⟨secs, now + secs * SystemTime.nanos, rfl, by omega, by rw [same]; exact if_pos small⟩

omit [DecidableEq K] in
theorem changeOfKey (ev : Event K V) : (ev.change subnetOf attrsOf).key = subnetOf ev.key := by
  cases ev <;> rfl

omit [DecidableEq K] in
theorem wellFormedSub {more : List (Event K V)} (wf : WellFormed codec subnetOf attrsOf events) (sub : more ⊆ events) :
    WellFormed codec subnetOf attrsOf more where
  keys ev mem := wf.keys ev (sub mem)
  values kv mem := wf.values kv (sub mem)
  distinct ev mem ev' mem' := wf.distinct ev (sub mem) ev' (sub mem')

theorem viewOfKey {k : K} (only : ∀ kv ∈ kvs, subnetOf kv.key = subnetOf k → kv.key = k) :
    storeView subnetOf attrsOf kvs (subnetOf k) = (Keyed.lookup KeyValue.key k kvs).map (fun kv => attrsOf kv.value) := by
  unfold storeView
  congr 1
  induction kvs with
  | nil => rfl
  | cons kv rest ih =>
    rw [Keyed.lookupCons, Keyed.lookupCons, ih (fun kv' mem => only kv' (List.mem_cons_of_mem _ mem))]
    by_cases same : kv.key = k
    · simp [same]
    · have apart : subnetOf kv.key ≠ subnetOf k := fun h => same (only kv List.mem_cons_self h)
      simp [same, apart]

theorem applyEventMem {ev : Event K V} {kv : KeyValue K V} (distinct : Keyed.Distinct KeyValue.key kvs)
    (member : kv ∈ Etcd.applyEvent codec kvs ev) : kv ∈ kvs ∨ ev = .put kv := by
  cases ev with
  | put new =>
    have after := Etcd.distinctApplyEvent codec distinct (.put new)
    have found := (Keyed.memIff after).mp member
    unfold Etcd.applyEvent at found
    rw [Keyed.lookupInsertSorted distinct] at found
    split at found
    · exact .inr (congrArg Event.put (Option.some.inj found))
    · exact .inl ((Keyed.memIff distinct).mpr found)
  | delete k => exact .inl (List.mem_filter.mp member).1

theorem viewApply {ev : Event K V} (distinct : Keyed.Distinct KeyValue.key kvs)
    (only : ∀ kv ∈ kvs, subnetOf kv.key = subnetOf ev.key → kv.key = ev.key) :
    storeView subnetOf attrsOf (Etcd.applyEvent codec kvs ev) =
      apply (storeView subnetOf attrsOf kvs) (ev.change subnetOf attrsOf) := by
  funext s
  rw [applyAt, changeOfKey]
  by_cases here : s = subnetOf ev.key
  · subst here
    rw [if_pos rfl, viewOfKey]
    · cases ev with
      | put kv =>
        simp only [Etcd.applyEvent, Event.key, Keyed.lookupInsertSorted distinct, if_true]
        rfl
      | delete k =>
        have gone := @Keyed.lookupFilter _ _ KeyValue.key _ k kvs (fun x => decide (x ≠ k))
        simp only [Etcd.applyEvent, Event.key, gone]
        simp [Event.change, Change.value]
    · intro kv member same
      rcases applyEventMem distinct member with old | rfl
      · exact only kv old same
      · rfl
  · rw [if_neg here]
    unfold storeView
    congr 1
    cases ev with
    | put kv =>
      refine Keyed.lookupInsertOther (fun h => here h.symm) ?_
      intro kv' _ same h
      exact here (h.symm.trans (congrArg subnetOf same))
    | delete k =>
      unfold Etcd.applyEvent Keyed.lookup
      rw [List.find?_filter]
      congr 1
      funext kv
      by_cases same : kv.key = k
      · have other : subnetOf kv.key ≠ s := fun h => here (h.symm.trans (congrArg subnetOf same))
        simp [other]
      · simp [same]

theorem foldView (wf : WellFormed codec subnetOf attrsOf events) :
    Keyed.Distinct KeyValue.key (events.foldl (Etcd.applyEvent codec) []) ∧
    (∀ kv ∈ events.foldl (Etcd.applyEvent codec) [], .put kv ∈ events) ∧
    storeView subnetOf attrsOf (events.foldl (Etcd.applyEvent codec) []) =
      replay unknown (events.map (Event.change subnetOf attrsOf)) := by
  induction events using List.reverseRecOn with
  | nil => exact ⟨List.nodup_nil, by simp, rfl⟩
  | append_singleton events ev ih =>
    obtain ⟨distinct, puts, view⟩ := ih (wellFormedSub wf (List.subset_append_left _ _))
    rw [List.foldl_append, List.foldl_cons, List.foldl_nil]
    refine ⟨Etcd.distinctApplyEvent codec distinct ev, ?_, ?_⟩
    · intro kv member
      rcases applyEventMem distinct member with old | rfl
      · exact List.mem_append_left _ (puts kv old)
      · exact List.mem_append_right _ List.mem_cons_self
    · rw [viewApply distinct, view, List.map_append, List.map_cons, List.map_nil, replaySnoc]
      intro kv member same
      exact wf.distinct (.put kv) (List.mem_append_left _ (puts kv member)) ev
        (List.mem_append_right _ List.mem_cons_self) same

theorem storeKvs (txns : List (List (Event K V))) :
    (storeAfter codec txns).kvs = txns.flatten.foldl (Etcd.applyEvent codec) [] ∧ (storeAfter codec txns).log = txns := by
  induction txns using List.reverseRecOn with
  | nil => exact ⟨rfl, rfl⟩
  | append_singleton txns txn ih =>
    obtain ⟨kvs, log⟩ := ih
    have last : storeAfter codec (txns ++ [txn]) = (storeAfter codec txns).commit codec txn := List.foldl_append
    rw [last, List.flatten_append, List.foldl_append, ← kvs]
    exact ⟨by simp [Etcd.commit], by simp [Etcd.commit, log]⟩

omit [DecidableEq K] in
theorem readAll {rpc : ReadRpc K V} (answered : ∀ kv ∈ kvs, Answered (rpc.ttl kv) (rpc.clock kv))
    (keys : ∀ kv ∈ kvs, ∃ sn6, codec.extractIpAndSubnet kv.key = .ok (subnetOf kv.key, sn6))
    (values : ∀ kv ∈ kvs, codec.fromSlice kv.value = .ok (attrsOf kv.value)) :
    ∃ leases, readLeases codec rpc kvs = .ok leases ∧ held leases = storeView subnetOf attrsOf kvs ∧
      leases.map Lease.subnet = kvs.map (fun kv => subnetOf kv.key) := by
  induction kvs with
  | nil => exact ⟨[], rfl, rfl, rfl⟩
  | cons kv rest ih =>
    obtain ⟨leases, read, view, subnets⟩ := ih (fun kv' mem => answered kv' (List.mem_cons_of_mem _ mem))
      (fun kv' mem => keys kv' (List.mem_cons_of_mem _ mem)) (fun kv' mem => values kv' (List.mem_cons_of_mem _ mem))
    obtain ⟨secs, exp, ttl, _, added⟩ := answeredExp (answered kv List.mem_cons_self)
    obtain ⟨sn6, key⟩ := keys kv List.mem_cons_self
    have value := values kv List.mem_cons_self
    let lease : Lease := {
      enableIpv4 := true
      enableIpv6 := sn6.isSome
      subnet := subnetOf kv.key
      ipv6Subnet := sn6
      expiration := exp
      attrs := attrsOf kv.value }
    refine ⟨lease :: leases, ?_, ?_, ?_⟩
    · simp only [readLeases, ttl, kvToIpLease, key, value, added, read, bind, Except.bind, expect]
      rfl
    · funext s
      have rest : held leases s = storeView subnetOf attrsOf rest s := congrFun view s
      unfold held storeView at rest ⊢
      rw [Keyed.lookupCons, Keyed.lookupCons]
      by_cases here : subnetOf kv.key = s
      · rw [if_pos here, if_pos here]
        rfl
      · rw [if_neg here, if_neg here, rest]
    · rw [List.map_cons, subnets]
      rfl

theorem resetAll {rpc : ReadRpc K V} {txns : List (List (Event K V))}
    (wf : WellFormed codec subnetOf attrsOf txns.flatten) (succeeds : rpc.failed = none)
    (answered : ∀ kv, .put kv ∈ txns.flatten → Answered (rpc.ttl kv) (rpc.clock kv)) :
    ∃ wr, leasesWatchReset codec rpc (storeAfter codec txns) = .ok wr ∧ wr.events = [] ∧
      held wr.snapshot = storeView subnetOf attrsOf (storeAfter codec txns).kvs ∧
      Keyed.Distinct Lease.subnet wr.snapshot ∧
      wr.cursor = if (storeAfter codec txns).kvs = [] then 0 else txns.length + 1 := by
  obtain ⟨kvs, log⟩ := @storeKvs _ _ _ codec txns
  obtain ⟨distinct, puts, _⟩ := foldView wf
  rw [← kvs] at distinct puts
  generalize storeAfter codec txns = db at kvs log distinct puts ⊢
  by_cases empty : db.kvs = []
  · refine ⟨{ snapshot := [], events := [], cursor := 0 }, ?_, rfl, ?_, List.nodup_nil, by simp [empty]⟩
    · simp [leasesWatchReset, getSubnets, succeeds, empty, bind, Except.bind, pure, Except.pure]
    · rw [empty]
      rfl
  · obtain ⟨leases, read, view, subnets⟩ := readAll (fun kv mem => answered kv (puts kv mem))
      (fun kv mem => wf.keys _ (puts kv mem)) (fun kv mem => wf.values kv (puts kv mem))
    refine ⟨{ snapshot := leases, events := [], cursor := db.revision }, ?_, rfl, view, ?_, ?_⟩
    · simp [leasesWatchReset, getSubnets, succeeds, empty, read, bind, Except.bind, pure, Except.pure]
    · unfold Keyed.Distinct
      rw [subnets]
      refine List.Nodup.map_on (fun kv mem kv' mem' same => ?_) (List.Nodup.of_map _ distinct)
      exact List.inj_on_of_nodup_map distinct mem mem' (wf.distinct _ (puts kv mem) _ (puts kv' mem') same)
    · rw [if_neg empty, Etcd.revision, log]

omit [DecidableEq K] in
theorem parseAll {ds : List (Delivery K V)} (wf : WellFormed codec subnetOf attrsOf (ds.map Delivery.event))
    (answered : ∀ d ∈ ds, ∀ kv, d.event = .put kv → Answered d.ttl d.now) :
    ∃ events, parseEvents codec ds = .ok events ∧
      events.map LeaseWatchEvent.change = ds.map (fun d => d.event.change subnetOf attrsOf) := by
  induction ds with
  | nil => exact ⟨[], rfl, rfl⟩
  | cons d rest ih =>
    obtain ⟨events, later, changes⟩ := ih (wellFormedSub wf (by simp)) (fun d' mem => answered d' (List.mem_cons_of_mem _ mem))
    have one : ∃ e, parseSubnetWatchResp codec d = .ok (some e) ∧ e.change = d.event.change subnetOf attrsOf := by
      obtain ⟨event, ttl, now⟩ := d
      obtain ⟨sn6, key⟩ := wf.keys event (by simp)
      cases event with
      | delete k => exact ⟨_, by simp only [parseSubnetWatchResp, key, bind, Except.bind]; rfl, rfl⟩
      | put kv =>
        have value := wf.values kv (by simp)
        obtain ⟨secs, exp, rfl, positive, added⟩ := answeredExp (answered ⟨.put kv, ttl, now⟩ (by simp) kv rfl)
        exact ⟨_, by simp only [parseSubnetWatchResp, key, value, added, if_neg positive, bind, Except.bind]; rfl, rfl⟩
    obtain ⟨e, parsed, change⟩ := one
    refine ⟨e :: events, ?_, by rw [List.map_cons, List.map_cons, change, changes]⟩
    simp only [parseEvents, parsed, later, bind, Except.bind]
    rfl

omit [DecidableEq K] in
theorem watchAll {responses : List (WatchResponse K V)}
    (wf : WellFormed codec subnetOf attrsOf ((responses.flatMap WatchResponse.events).map Delivery.event))
    (answered : ∀ d ∈ responses.flatMap WatchResponse.events, ∀ kv, d.event = .put kv → Answered d.ttl d.now)
    (live : ∀ resp ∈ responses, resp.canceled = false) :
    (∀ wr ∈ (watchSubnets codec responses).1.flatten, wr.events ≠ [] ∧ wr.snapshot = []) ∧
    ∀ info, (watchSubnets codec responses).1.flatten.foldl inform info =
      replay info ((responses.flatMap WatchResponse.events).map (fun d => d.event.change subnetOf attrsOf)) := by
  induction responses with
  | nil => exact ⟨by simp [watchSubnets], fun _ => rfl⟩
  | cons resp rest ih =>
    rw [List.flatMap_cons] at wf answered
    rw [List.map_append] at wf
    obtain ⟨later, info⟩ := ih (wellFormedSub wf (List.subset_append_right _ _))
      (fun d mem => answered d (List.mem_append_right _ mem)) (fun resp' mem => live resp' (List.mem_cons_of_mem _ mem))
    obtain ⟨events, parsed, changes⟩ := parseAll (wellFormedSub wf (List.subset_append_left _ _))
      (fun d mem => answered d (List.mem_append_left _ mem))
    have here := live resp List.mem_cons_self
    let results := events.map (fun e => { events := [e], cursor := resp.revision : LeaseWatchResult })
    have sent : (watchSubnets codec (resp :: rest)).1.flatten = results ++ (watchSubnets codec rest).1.flatten := by
      simp only [watchSubnets, here, Bool.false_eq_true, if_false, parsed]
      split
      · rename_i empty
        rw [show results = [] from List.isEmpty_iff.mp empty, List.nil_append]
      · rfl
    have folded : ∀ info, results.foldl inform info = replay info (events.map LeaseWatchEvent.change) := by
      intro info
      simp only [results, List.foldl_map, replay, inform]
      rfl
    rw [sent]
    refine ⟨?_, ?_⟩
    · intro wr member
      rcases List.mem_append.mp member with one | other
      · obtain ⟨e, _, rfl⟩ := List.mem_map.mp one
        exact ⟨by simp, rfl⟩
      · exact later wr other
    · intro start
      rw [List.foldl_append, folded, info, changes, List.flatMap_cons, List.map_append, replayAppend]

theorem viewAfter {txns : List (List (Event K V))} (wf : WellFormed codec subnetOf attrsOf txns.flatten) :
    storeView subnetOf attrsOf (storeAfter codec txns).kvs =
      replay unknown (txns.flatten.map (Event.change subnetOf attrsOf)) := by
  rw [(storeKvs txns).1]
  exact (foldView wf).2.2

/- The watcher is in step with the snapshot and the events after it. -/
theorem watcherInStep {own : Lease} {txns : List (List (Event K V))} {rpc : ReadRpc K V}
    {responses : List (WatchResponse K V)}
    (wf : WellFormed codec subnetOf attrsOf txns.flatten)
    (wf' : WellFormed codec subnetOf attrsOf ((responses.flatMap WatchResponse.events).map Delivery.event))
    (succeeds : rpc.failed = none) (answered : ∀ kv, .put kv ∈ txns.flatten → Answered (rpc.ttl kv) (rpc.clock kv))
    (answered' : ∀ d ∈ responses.flatMap WatchResponse.events, ∀ kv, d.event = .put kv → Answered d.ttl d.now)
    (live : ∀ resp ∈ responses, resp.canceled = false) :
    ∃ results, watchLeasesInner codec rpc (storeAfter codec txns) responses = .ok results ∧
      InStep own (run Watch.handle (Watch.start own) results)
        (replay (storeView subnetOf attrsOf (storeAfter codec txns).kvs)
          (((responses.flatMap WatchResponse.events).map Delivery.event).map (Event.change subnetOf attrsOf))) := by
  obtain ⟨wr, read, none, view, fresh, _⟩ := resetAll wf succeeds answered
  obtain ⟨later, info⟩ := watchAll wf' answered' live
  refine ⟨wr :: (watchSubnets codec responses).1.flatten, by simp [watchLeasesInner, read, bind, Except.bind, pure,
    Except.pure], ?_⟩
  have steady : Along Watch.handle (Steady own) (Watch.start own) (wr :: (watchSubnets codec responses).1.flatten) := by
    refine ⟨?_, alongMono (fun s wr events => ?_) (alongOfMem (fun wr mem => (later wr mem).1))⟩
    · simp [Steady, none, Watch.start]
    · simp only [Steady, if_pos events]
  have distinct : ∀ wr' ∈ wr :: (watchSubnets codec responses).1.flatten, Keyed.Distinct Lease.subnet wr'.snapshot := by
    intro wr' mem
    rcases List.mem_cons.mp mem with rfl | other
    · exact fresh
    · rw [(later wr' other).2]
      exact List.nodup_nil
  have step := runInStep distinct (startInStep own) steady
  rw [List.foldl_cons, informSnapshot none, info, view] at step
  rw [List.map_map]
  exact step

theorem watcherHolds {own : Lease} {txns : List (List (Event K V))} {rpc : ReadRpc K V}
    {responses : List (WatchResponse K V)}
    (wf : WellFormed codec subnetOf attrsOf txns.flatten)
    (wf' : WellFormed codec subnetOf attrsOf ((responses.flatMap WatchResponse.events).map Delivery.event))
    (succeeds : rpc.failed = none) (answered : ∀ kv, .put kv ∈ txns.flatten → Answered (rpc.ttl kv) (rpc.clock kv))
    (answered' : ∀ d ∈ responses.flatMap WatchResponse.events, ∀ kv, d.event = .put kv → Answered d.ttl d.now)
    (live : ∀ resp ∈ responses, resp.canceled = false) :
    ∃ results, watchLeasesInner codec rpc (storeAfter codec txns) responses = .ok results ∧ ∀ s ≠ own.subnet,
      held (run Watch.handle (Watch.start own) results).watcher.leases s =
        replay (storeView subnetOf attrsOf (storeAfter codec txns).kvs)
          (((responses.flatMap WatchResponse.events).map Delivery.event).map (Event.change subnetOf attrsOf)) s := by
  obtain ⟨results, inner, step⟩ := @watcherInStep _ _ _ _ _ _ own _ _ _ wf wf' succeeds answered answered' live
  exact ⟨results, inner, step.holds⟩

omit [DecidableEq K] in
theorem flattenSub {txns more : List (List (Event K V))} (sub : more ⊆ txns) : more.flatten ⊆ txns.flatten := by
  intro ev member
  obtain ⟨txn, mem, inside⟩ := List.mem_flatten.mp member
  exact List.mem_flatten.mpr ⟨txn, sub mem, inside⟩

omit [DecidableEq K] in
theorem wellFormedTake {txns : List (List (Event K V))} {n : Nat} (wf : WellFormed codec subnetOf attrsOf txns.flatten) :
    WellFormed codec subnetOf attrsOf (txns.take n).flatten :=
  wellFormedSub wf (flattenSub (List.take_subset n txns))

theorem nonEmptyAfter {txns : List (List (Event K V))} (some : (storeAfter codec txns).kvs ≠ []) : txns ≠ [] := by
  rintro rfl
  exact some rfl

theorem replayNewest {txns : List (List (Event K V))} {snapshotAt reached : Nat}
    (wf : WellFormed codec subnetOf attrsOf txns.flatten) (positive : 0 < snapshotAt) (later : snapshotAt ≤ reached) :
    replay (storeView subnetOf attrsOf (storeAfter codec (txns.take snapshotAt)).kvs)
        (((txns.take reached).drop (snapshotAt - 1)).flatten.map (Event.change subnetOf attrsOf)) =
      storeView subnetOf attrsOf (storeAfter codec (txns.take reached)).kvs := by
  obtain ⟨before, rfl⟩ : ∃ before, snapshotAt = before + 1 := ⟨snapshotAt - 1, by omega⟩
  have newest : (txns.take reached).drop before =
      ((txns.take reached).drop before).take 1 ++ (txns.take reached).drop (before + 1) := by
    rw [← List.drop_drop, List.take_append_drop]
  have first : txns.take (before + 1) = (txns.take reached).take before ++ ((txns.take reached).drop before).take 1 := by
    rw [← List.take_add, List.take_take, Nat.min_eq_left later]
  have whole : txns.take reached = (txns.take reached).take before ++
      (((txns.take reached).drop before).take 1 ++ (txns.take reached).drop (before + 1)) := by
    rw [← newest, List.take_append_drop]
  rw [viewAfter (wellFormedTake wf),
    viewAfter (wellFormedTake wf), Nat.add_sub_cancel, newest, first]
  conv_rhs => rw [whole]
  simp only [List.flatten_append, List.map_append]
  exact replayOverlap

/- The view after the later transactions is theirs on top of the earlier view. -/
theorem viewSince {txns : List (List (Event K V))} {snapshotAt reached : Nat}
    (wf : WellFormed codec subnetOf attrsOf txns.flatten) (later : snapshotAt ≤ reached) :
    storeView subnetOf attrsOf (storeAfter codec (txns.take reached)).kvs =
      replay (storeView subnetOf attrsOf (storeAfter codec (txns.take snapshotAt)).kvs)
        (((txns.take reached).drop snapshotAt).flatten.map (Event.change subnetOf attrsOf)) := by
  have first : txns.take snapshotAt = (txns.take reached).take snapshotAt := by
    rw [List.take_take, Nat.min_eq_left later]
  have parts := List.take_append_drop snapshotAt (txns.take reached)
  rw [viewAfter (wellFormedTake wf),
    viewAfter (wellFormedTake wf), first]
  conv_lhs => rw [← parts]
  rw [List.flatten_append, List.map_append, replayAppend]

theorem handOverIff {own : Lease} {txns : List (List (Event K V))} {snapshotAt registeredAt reached : Nat}
    {rpc : ReadRpc K V} {responses : List (WatchResponse K V)}
    (wf : WellFormed codec subnetOf attrsOf txns.flatten) (ordered : snapshotAt ≤ registeredAt)
    (later : snapshotAt ≤ reached) (happened : reached ≤ txns.length) (succeeds : rpc.failed = none)
    (answered : ∀ kv, .put kv ∈ txns.flatten → Answered (rpc.ttl kv) (rpc.clock kv))
    (delivered : ∀ wr, leasesWatchReset codec rpc (storeAfter codec (txns.take snapshotAt)) = .ok wr →
      (responses.flatMap WatchResponse.events).map Delivery.event =
        (deliveredTxns txns wr.cursor registeredAt reached).flatten)
    (answered' : ∀ d ∈ responses.flatMap WatchResponse.events, ∀ kv, d.event = .put kv → Answered d.ttl d.now)
    (live : ∀ resp ∈ responses, resp.canceled = false) :
    ∃ results, watchLeasesInner codec rpc (storeAfter codec (txns.take snapshotAt)) responses = .ok results ∧
      ((∀ s ≠ own.subnet, held (run Watch.handle (Watch.start own) results).watcher.leases s =
          storeView subnetOf attrsOf (storeAfter codec (txns.take reached)).kvs s) ↔
        (storeAfter codec (txns.take snapshotAt)).kvs ≠ [] ∨ ∀ s ≠ own.subnet, ∀ attrs,
          latest s (((txns.take reached).drop snapshotAt).flatten.map (Event.change subnetOf attrsOf)) = some (.put s attrs) →
          latest s (((txns.take reached).drop registeredAt).flatten.map (Event.change subnetOf attrsOf)) ≠ none) := by
  obtain ⟨wr, read, _, _, _, cursor⟩ := resetAll (wellFormedTake wf) succeeds
    (fun kv mem => answered kv (flattenSub (List.take_subset _ _) mem))
  have sent := delivered wr read
  have sub : (deliveredTxns txns wr.cursor registeredAt reached).flatten ⊆ txns.flatten := by
    refine flattenSub fun txn mem => ?_
    unfold deliveredTxns at mem
    split at mem <;> exact List.mem_of_mem_take (List.mem_of_mem_drop mem)
  obtain ⟨results, inner, holds⟩ := @watcherHolds K V _ codec subnetOf attrsOf own (txns.take snapshotAt) rpc responses
    (wellFormedTake wf) (by rw [sent]; exact wellFormedSub wf sub) succeeds
    (fun kv mem => answered kv (flattenSub (List.take_subset _ _) mem)) answered' live
  refine ⟨results, inner, ?_⟩
  rw [sent] at holds
  -- cursor 0 starts the watch at its registration, any other at the snapshot's newest transaction
  by_cases empty : (storeAfter codec (txns.take snapshotAt)).kvs = []
  · rw [if_pos empty] at cursor
    have nothing : storeView subnetOf attrsOf (storeAfter codec (txns.take snapshotAt)).kvs = unknown := by
      rw [empty]
      rfl
    have gap : (txns.take reached).drop snapshotAt =
        ((txns.take reached).drop snapshotAt).take (registeredAt - snapshotAt) ++ (txns.take reached).drop registeredAt := by
      conv_lhs => rw [← List.take_append_drop (registeredAt - snapshotAt) ((txns.take reached).drop snapshotAt)]
      rw [List.drop_drop, Nat.add_sub_cancel' ordered]
    simp only [empty, ne_eq, not_true_eq_false, false_or]
    refine forall₂_congr fun s other => ?_
    rw [holds s other, @viewSince _ _ _ codec _ _ _ _ _ wf later, nothing, cursor, gap, List.flatten_append, List.map_append]
    exact replaySuffix rfl
  · have positive : 0 < snapshotAt := by
      by_contra none
      exact nonEmptyAfter empty (by rw [Nat.eq_zero_of_not_pos none, List.take_zero])
    have length : (txns.take snapshotAt).length = snapshotAt := by
      rw [List.length_take]
      omega
    rw [if_neg empty, length] at cursor
    refine ⟨fun _ => .inl empty, fun _ s other => ?_⟩
    rw [holds s other, cursor]
    simp only [deliveredTxns, Nat.add_eq_zero_iff, one_ne_zero, and_false, if_false]
    exact congrFun (replayNewest wf positive later) s

end HandOver
private def entryAt (ip publicIp : Ipv4Addr) : KeyValue Ipv4Network LeaseAttrs := ⟨cidr ip 24, { publicIp }, 1⟩

private def watcherOf (results : List LeaseWatchResult) : LeaseWatcher :=
  (run Watch.handle (Watch.start { Lease.default 0 with subnet := cidr 0x0A000100 24 }) results).watcher

theorem createdInGapIsLost :
    let history := [[Event.put (entryAt 0x0A000200 2)]]
    watchLeasesInner Codec.plain (ReadRpc.quiet 100 0) (storeAfter Codec.plain (history.take 0)) [] = .ok [{}] ∧
    deliveredTxns history 0 1 1 = [] ∧ held (watcherOf [{}]).leases (cidr 0x0A000200 24) = none ∧
    storeView id id (storeAfter Codec.plain (history.take 1)).kvs (cidr 0x0A000200 24) = some { publicIp := 2 } := by
  decide

private def busyHistory : List (List (Event Ipv4Network LeaseAttrs)) := [
  [.put (entryAt 0x0A000200 2)], [.put (entryAt 0x0A000300 3)], [.delete (cidr 0x0A000200 24)]]

private def busyResponse : WatchResponse Ipv4Network LeaseAttrs :=
  ⟨busyHistory.flatten.map (fun ev => ⟨ev, some 100, 0⟩), 4, false⟩

private theorem plainWellFormed (events : List (Event Ipv4Network LeaseAttrs)) :
    WellFormed Codec.plain id id events :=
  ⟨fun _ _ => ⟨none, rfl⟩, fun _ _ => rfl, fun _ _ _ _ => id⟩

private theorem plainAnswered : Answered (some 100) 0 :=
  ⟨100, rfl, by decide⟩

theorem busyHistoryFollowed : ∃ results,
    watchLeasesInner Codec.plain (ReadRpc.quiet 100 0) (storeAfter Codec.plain (busyHistory.take 1)) [busyResponse] =
      .ok results ∧
    ∀ s ≠ cidr 0x0A000100 24,
      held (watcherOf results).leases s = storeView id id (storeAfter Codec.plain busyHistory).kvs s := by
  obtain ⟨results, inner, iff⟩ := @handOverIff _ _ _ Codec.plain id id
    { Lease.default 0 with subnet := cidr 0x0A000100 24 } busyHistory 1 2 3 (ReadRpc.quiet 100 0) [busyResponse]
    (plainWellFormed _) (by decide) (by decide) (by decide) rfl (fun _ _ => plainAnswered)
    (fun wr read => by cases read; decide)
    (fun d member kv _ => by
      simp only [busyResponse, List.flatMap_cons, List.flatMap_nil, List.append_nil, List.mem_map] at member
      obtain ⟨_, _, rfl⟩ := member
      exact plainAnswered)
    (by simp [busyResponse])
  exact ⟨results, inner, iff.mpr (.inl (by decide))⟩

end FlannelNg
