import FlannelNg.Changes
import FlannelNg.Emitted

/-! The records that a watch brings. A record whose key or value cannot be read ends the
watch, and with it goes the whole response; the responses before it are delivered. -/
namespace FlannelNg
open Cidr Outcome Replay Runs

section Records
variable {K V : Type} (codec : Codec K V)

/- The key can be read, and the value if there is one. -/
def readable (d : Delivery K V) : Bool :=
  (codec.extractIpAndSubnet d.event.key).isOk &&
    match d.event with
    | .delete _ => true
    | .put kv => (codec.fromSlice kv.value).isOk

/- The TTL query for a put entry succeeds, with a time that can be added to the clock if
the entry is live. -/
def Responds (d : Delivery K V) : Prop :=
  ∀ kv, d.event = .put kv →
    ∃ ttl : Int, d.ttl = some ttl ∧ (ttl < 0 ∨ ∃ exp, d.now.addSecs (asU64 ttl) = .ok exp)

def decoded (d : Delivery K V) : Option LeaseWatchEvent :=
  match parseSubnetWatchResp codec d with
  | .ok e => e
  | .error _ => none

def subnetNamed (d : Delivery K V) : Option Ipv4Network :=
  match codec.extractIpAndSubnet d.event.key with
  | .ok (sn4, _) => some sn4
  | .error _ => none

def deliveredEvents (responses : List (WatchResponse K V)) : List LeaseWatchEvent :=
  (watchSubnets codec responses).1.flatten.flatMap LeaseWatchResult.events

def clear (resp : WatchResponse K V) : Bool := resp.events.all (readable codec)

variable {codec} {d : Delivery K V} {e : LeaseWatchEvent} {ds : List (Delivery K V)}
variable {responses : List (WatchResponse K V)}

theorem readableParsed (responds : Responds d) (read : readable codec d = true) :
    parseSubnetWatchResp codec d = .ok (decoded codec d) := by
  have parsed : ∃ found, parseSubnetWatchResp codec d = .ok found := by
    obtain ⟨event, ttl, now⟩ := d
    unfold readable at read
    unfold parseSubnetWatchResp
    cases key : codec.extractIpAndSubnet event.key with
    | error stop => simp [key, Except.isOk, Except.toBool] at read
    | ok sn =>
      cases event with
      | delete k => exact ⟨_, rfl⟩
      | put kv =>
        cases value : codec.fromSlice kv.value with
        | error stop => simp [value, Except.isOk, Except.toBool] at read
        | ok attrs =>
          obtain ⟨secs, rfl, late⟩ := responds kv rfl
          simp only [value, bind, Except.bind]
          by_cases expired : secs < 0
          · exact ⟨none, by rw [if_pos expired]; rfl⟩
          · obtain ⟨exp, added⟩ := late.resolve_left expired
            exact ⟨_, by rw [if_neg expired, added]; rfl⟩
  obtain ⟨found, parsed⟩ := parsed
  rw [decoded, parsed]

theorem unreadableFails (unread : readable codec d = false) : ∃ stop, parseSubnetWatchResp codec d = .error stop := by
  obtain ⟨event, ttl, now⟩ := d
  unfold readable at unread
  unfold parseSubnetWatchResp
  cases key : codec.extractIpAndSubnet event.key with
  | error stop => exact ⟨stop, rfl⟩
  | ok sn =>
    cases event with
    | delete k => simp [key, Except.isOk, Except.toBool] at unread
    | put kv =>
      cases value : codec.fromSlice kv.value with
      | error stop => exact ⟨stop, by simp only [value]; rfl⟩
      | ok attrs => simp [key, value, Except.isOk, Except.toBool] at unread

/- The subnet of a decoded event is that of the key, and a delete knows nothing else. -/
theorem decodedSource (found : decoded codec d = some e) : subnetNamed codec d = some e.lease.subnet ∧ FromStore e := by
  obtain ⟨event, ttl, now⟩ := d
  unfold decoded at found
  unfold subnetNamed
  cases parsed : parseSubnetWatchResp codec ⟨event, ttl, now⟩ with
  | error stop => simp [parsed] at found
  | ok some_ =>
    rw [parsed] at found
    cases found
    simp only [parseSubnetWatchResp, bindOk] at parsed
    obtain ⟨⟨sn4, sn6⟩, key, last⟩ := parsed
    rw [key]
    cases event with
    | delete k =>
      cases Option.some.inj (Except.ok.inj last)
      exact ⟨rfl, fun _ => rfl⟩
    | put kv =>
      simp only [bindOk] at last
      obtain ⟨attrs, _, last⟩ := last
      cases ttl with
      | none => contradiction
      | some secs =>
        simp only at last
        split at last
        · cases last
        · obtain ⟨exp, _, last⟩ := bindOk.mp last
          cases Option.some.inj (Except.ok.inj last)
          exact ⟨rfl, fun delete => by contradiction⟩

theorem parseReadable (responds : ∀ d ∈ ds, Responds d) (read : ds.all (readable codec) = true) :
    parseEvents codec ds = .ok (ds.filterMap (decoded codec)) := by
  induction ds with
  | nil => rfl
  | cons d rest ih =>
    rw [List.all_cons, Bool.and_eq_true] at read
    rw [parseEvents, readableParsed (responds d List.mem_cons_self) read.1,
      ih (fun d' mem => responds d' (List.mem_cons_of_mem _ mem)) read.2, List.filterMap_cons]
    cases decoded codec d <;> rfl

theorem parseUnreadable (responds : ∀ d ∈ ds, Responds d) (unread : ds.all (readable codec) = false) :
    ∃ stop, parseEvents codec ds = .error stop := by
  induction ds with
  | nil => contradiction
  | cons d rest ih =>
    cases read : readable codec d with
    | false =>
      obtain ⟨stop, failed⟩ := unreadableFails read
      exact ⟨stop, by rw [parseEvents, failed]; rfl⟩
    | true =>
      rw [List.all_cons, read, Bool.true_and] at unread
      obtain ⟨stop, failed⟩ := ih (fun d' mem => responds d' (List.mem_cons_of_mem _ mem)) unread
      exact ⟨stop, by rw [parseEvents, readableParsed (responds d List.mem_cons_self) read, failed]; rfl⟩

/- The responses in front of the first one that is not clear are delivered, each event as
a result of its own. -/
theorem watchedPrefix (live : ∀ resp ∈ responses, resp.canceled = false)
    (responds : ∀ d ∈ responses.flatMap WatchResponse.events, Responds d) :
    deliveredEvents codec responses =
        ((responses.takeWhile (clear codec)).flatMap WatchResponse.events).filterMap (decoded codec) ∧
      ∀ wr ∈ (watchSubnets codec responses).1.flatten, wr.snapshot = [] := by
  induction responses with
  | nil => exact ⟨rfl, by simp [watchSubnets]⟩
  | cons resp rest ih =>
    rw [List.flatMap_cons] at responds
    have here := live resp List.mem_cons_self
    have answered := fun d mem => responds d (List.mem_append_left _ mem)
    obtain ⟨later, plain⟩ := ih (fun resp' mem => live resp' (List.mem_cons_of_mem _ mem))
      (fun d mem => responds d (List.mem_append_right _ mem))
    unfold deliveredEvents at later ⊢
    cases read : clear codec resp with
    | false =>
      obtain ⟨stop, failed⟩ := parseUnreadable answered read
      simp [watchSubnets, here, failed, read]
    | true =>
      have parsed := parseReadable answered read
      have sent : (watchSubnets codec (resp :: rest)).1.flatten =
          (resp.events.filterMap (decoded codec)).map (fun e => { events := [e], cursor := resp.revision }) ++
            (watchSubnets codec rest).1.flatten := by
        simp only [watchSubnets, here, Bool.false_eq_true, if_false, parsed]
        split
        · rename_i empty
          rw [List.isEmpty_iff.mp empty, List.nil_append]
        · rfl
      rw [sent, List.takeWhile_cons_of_pos read, List.flatMap_cons, List.flatMap_append, List.filterMap_append, later]
      refine ⟨?_, ?_⟩
      · rw [List.flatMap_map, List.flatMap_singleton']
      · intro wr member
        rcases List.mem_append.mp member with one | other
        · obtain ⟨e, _, rfl⟩ := List.mem_map.mp one
          rfl
        · exact plain wr other

end Records

section Watched
variable {K V : Type} (codec : Codec K V)

/- What the watcher makes of its first snapshot and the responses. -/
def watched (own : Lease) (snapshot : List Lease) (responses : List (WatchResponse K V)) : Watch :=
  run Watch.handle (Watch.start own) ({ snapshot } :: (watchSubnets codec responses).1.flatten)

variable {codec} {own : Lease} {snapshot : List Lease} {responses : List (WatchResponse K V)}

theorem handlePlain {s : Watch} {results : List LeaseWatchResult} (plain : ∀ wr ∈ results, wr.snapshot = []) :
    run Watch.handle s results = run Watch.handle s ((results.map LeaseWatchResult.events).map (fun events => { events })) := by
  induction results generalizing s with
  | nil => rfl
  | cons wr rest ih =>
    have same : s.handle wr = s.handle { events := wr.events } := by
      simp only [Watch.handle, Watch.batchOf, plain wr List.mem_cons_self]
    rw [runCons, List.map_cons, List.map_cons, runCons, same]
    exact ih (fun wr' mem => plain wr' (List.mem_cons_of_mem _ mem))

theorem watchedEmits (fresh : Keyed.Distinct Lease.subnet snapshot)
    (plain : ∀ wr ∈ (watchSubnets codec responses).1.flatten, wr.snapshot = []) :
    (watched codec own snapshot responses).emitted =
      (snapshot.filter (fun nl => decide (nl.subnet ≠ own.subnet))).map (fun nl => ⟨nl, .put⟩) ++
        (LeaseWatcher.update ⟨own, snapshot⟩ (deliveredEvents codec responses)).1 := by
  rw [watched, runCons, handlePlain plain, ← runCons, ← LeaseWatcher.emitsHandled, LeaseWatcher.emitsParts fresh]
  rfl

end Watched

end FlannelNg
