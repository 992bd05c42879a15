import FlannelNg.FailedWrite
import FlannelNg.RenewLoop

/-! The renewal loop against the clock of etcd. A lease ends on etcd's clock a latency
before the node thinks so; the margin makes up for that and for some failed renewals. -/
namespace FlannelNg
open Cidr Outcome Runs

/-- How late things may be, in nanoseconds: a task that is due, and the answer to a write.
Etcd grants leases of `ttl` seconds, and so many renewals in a row may fail. -/
structure Timing where
  minutes : UInt32
  ttl : Nat
  delay : Nat
  latency : Nat
  retries : Nat

namespace Timing

/- From the end of a sleep whose renewal fails to the end of the next one. -/
def retry (t : Timing) : Nat := 3 * SystemTime.nanos + 2 * t.delay + t.latency

/-- The margin covers what may be late, and a lease is longer than the margin. -/
structure Enough (t : Timing) : Prop where
  margin : 2 * (t.delay + t.latency) + t.retries * t.retry ≤ renewMargin t.minutes
  long : renewMargin t.minutes + t.delay ≤ t.ttl * SystemTime.nanos

end Timing

/-- The loop of a node, when its sleep began and how many renewals have failed since; the
store with all its earlier states, and when etcd ends each of its leases. -/
structure Held where
  loop : Res Renewal
  since : Nat
  failed : Nat
  db : Store
  past : List Store
  ends : Int → Nat

/-- A sleep and its renewal, with the times at which the task woke, etcd granted the lease, the
clock was read and the next sleep began; a batch of the own watch; the end of a lease; or a
write of another node. -/
inductive Tick where
  | slept (rpc : WriteRpc) (woken granted read since : Nat)
  | received (events : List (LeaseWatchEvent × SystemTime)) (since : Nat)
  | lapsed (id : Int) (now : Nat)
  | others (i : Interference Ipv4Network LeaseAttrs)

namespace Held

def began (minutes : UInt32) (lease : Lease) (now since : Nat) (db : Store) (ends : Int → Nat) : Held where
  loop := Renewal.start minutes lease now
  since
  failed := 0
  db
  past := [db]
  ends

def store (x : Held) (db : Store) : Held := { x with db, past := db :: x.past }

def written (x : Held) (rpc : WriteRpc) : Store :=
  match x.loop with
  | .ok s => (renewLease Codec.plain s.lease rpc x.db).2
  | .error _ => x.db

def granted (x : Held) (rpc : WriteRpc) (granted : Nat) : Int → Nat :=
  match rpc.grant with
  | .ok (id, ttl) => Function.update x.ends id (granted + asU64 ttl * SystemTime.nanos)
  | .error _ => x.ends

def step (minutes : UInt32) (x : Held) : Tick → Held
  | .slept rpc _ granted read since => {
      loop := Renewal.step Codec.plain minutes x.loop (.slept rpc x.db read)
      since
      failed := if rpc.renewed.isSome then 0 else x.failed + 1
      db := x.written rpc
      past := x.written rpc :: x.past
      ends := x.granted rpc granted }
  | .received events since => {
      x with
      loop := Renewal.step Codec.plain minutes x.loop (.received events)
      since
      failed := 0 }
  | .lapsed id _ => x.store (x.db.revoke Codec.plain id)
  | .others i => x.store (interfere Codec.plain x.db i)

/-- The renewal after a sleep: nothing is later than allowed, the grant has an id that no entry
ever had, and a put that was applied is answered. -/
structure Renews (t : Timing) (x : Held) (s : Renewal) (rpc : WriteRpc) (woken granted read since : Nat) : Prop where
  began : x.since ≤ woken
  punctual : woken ≤ x.since + s.dur + t.delay
  grant : woken ≤ granted ∧ granted ≤ rpc.now
  answered : rpc.now ≤ woken + t.latency
  next : rpc.now ≤ read ∧ read ≤ since ∧ since ≤ rpc.now + t.delay
  fresh : ∀ id ttl, rpc.grant = .ok (id, ttl) → ∀ past ∈ x.past, ∀ kv ∈ past.kvs, kv.lease ≠ id
  seen : ¬rpc.AppliedUnseen
  lasts : ∀ secs, rpc.renewed = some secs → secs = t.ttl
  shown : rpc.now / SystemTime.nanos + t.ttl < 2 ^ 63
  again : rpc.renewed = none → x.failed < t.retries

/-- The own watch tells of states that the store was in, and of a lease while it has more than the margin left. -/
structure Tells (t : Timing) (sn : Ipv4Network) (x : Held) (events : List (LeaseWatchEvent × SystemTime))
    (since : Nat) : Prop where
  nonempty : events ≠ []
  began : x.since ≤ since
  next : ∀ e ∈ events, e.2 ≤ since ∧ since ≤ e.2 + t.delay
  left : ∀ e ∈ events, e.1.eventType = .put → e.2 + renewMargin t.minutes ≤ e.1.lease.expiration
  puts : ∀ e ∈ events, e.1.eventType = .put → e.1.lease.subnet = sn ∧ ∃ past ∈ x.past, ∃ kv, past.get sn = some kv ∧
    e.1.lease.attrs = kv.value ∧ e.1.lease.expiration ≤ x.ends kv.lease + t.latency
  deletes : ∀ e ∈ events, e.1.eventType = .delete → ∃ past ∈ x.past, past.get sn = none

/- Others may try to create an entry of any subnet, this one too. -/
def Elsewhere (sn : Ipv4Network) : Interference Ipv4Network LeaseAttrs → Prop
  | .put kv => kv.key ≠ sn
  | .create _ => True
  | .expire k => k ≠ sn

/- Etcd ends a lease when it is over, and time does not go on past a renewal that is due. -/
def Timely (t : Timing) (sn : Ipv4Network) (x : Held) : Tick → Prop
  | .slept rpc woken granted read since => ∀ s, x.loop = .ok s → Renews t x s rpc woken granted read since
  | .received events since => Tells t sn x events since
  | .lapsed id now => x.ends id < now ∧ ∀ s, x.loop = .ok s → now ≤ x.since + s.dur + t.delay + t.latency
  | .others i => Elsewhere sn i

/-- A node has a lease with more than the margin left, and its entry is in the store. -/
structure Begins (t : Timing) (lease : Lease) (now since : Nat) (db : Store) (ends : Int → Nat) : Prop where
  left : now + renewMargin t.minutes ≤ lease.expiration
  begun : since ≤ now + t.delay
  entry : ∃ kv, db.get lease.subnet = some kv ∧ kv.value = lease.attrs ∧
    lease.expiration ≤ ends kv.lease + t.latency ∧ ends kv.lease ≤ since + t.ttl * SystemTime.nanos

/-- The loop goes on with the subnet, whose entry outlives the end of the sleep; and so far it always had one. -/
structure Stands (t : Timing) (lease : Lease) (x : Held) : Prop where
  held : ∃ s kv, x.loop = .ok s ∧ s.lease.subnet = lease.subnet ∧ s.lease.attrs = lease.attrs ∧
    x.db.get lease.subnet = some kv ∧ kv.value = lease.attrs ∧ x.since + s.dur + t.delay + t.latency ≤ x.ends kv.lease
  always : ∀ past ∈ x.past, ∃ kv, past.get lease.subnet = some kv ∧ kv.value = lease.attrs

/-- The loop goes on, and its next renewal, with those that may fail before it, comes before the entry's end. -/
structure Keeps (t : Timing) (sn : Ipv4Network) (attrs : LeaseAttrs) (x : Held) (s : Renewal)
    (kv : KeyValue Ipv4Network LeaseAttrs) : Prop where
  going : x.loop = .ok s
  subnet : s.lease.subnet = sn
  own : s.lease.attrs = attrs
  entry : x.db.get sn = some kv
  present : x.db ∈ x.past
  stood : ∀ past ∈ x.past, ∃ old, past.get sn = some old ∧ old.value = attrs ∧ x.ends old.lease ≤ x.ends kv.lease
  tries : x.failed ≤ t.retries
  inTime : x.since + s.dur + t.delay + t.latency + (t.retries - x.failed) * t.retry ≤ x.ends kv.lease
  short : x.ends kv.lease ≤ x.since + t.ttl * SystemTime.nanos

def Kept (t : Timing) (sn : Ipv4Network) (attrs : LeaseAttrs) (x : Held) : Prop := ∃ s kv, Keeps t sn attrs x s kv

variable {t : Timing} {sn : Ipv4Network} {attrs : LeaseAttrs} {x : Held} {s : Renewal} {kv : KeyValue Ipv4Network LeaseAttrs}
variable {rpc : WriteRpc} {woken answered read since : Nat} {events : List (LeaseWatchEvent × SystemTime)}

/- A sleep until the margin before an expiration that is a latency late. -/
theorem reckonedInTime {now expiration since ends : Nat} (enough : t.Enough) (left : now + renewMargin t.minutes ≤ expiration)
    (late : expiration ≤ ends + t.latency) (begun : since ≤ now + t.delay) :
    since + (expiration - now - renewMargin t.minutes) + t.delay + t.latency + (t.retries - 0) * t.retry ≤ ends := by
  have margin := enough.margin
  rw [Nat.sub_zero]
  generalize renewMargin t.minutes = m at *
  generalize t.retries * t.retry = tries at *
  omega

/- Three seconds after a renewal that failed there is one try less left. -/
theorem retriedInTime {before dur failed woken answered since ends : Nat} (more : failed < t.retries)
    (punctual : woken ≤ before + dur + t.delay) (late : answered ≤ woken + t.latency) (begun : since ≤ answered + t.delay)
    (inTime : before + dur + t.delay + t.latency + (t.retries - failed) * t.retry ≤ ends) :
    since + 3 * SystemTime.nanos + t.delay + t.latency + (t.retries - (failed + 1)) * t.retry ≤ ends := by
  obtain ⟨later, tries⟩ : ∃ later, t.retries - failed = later + 1 := ⟨t.retries - failed - 1, by omega⟩
  have left : t.retries - (failed + 1) = later := by omega
  rw [tries, Nat.succ_mul, show t.retry = 3 * SystemTime.nanos + 2 * t.delay + t.latency from rfl] at inTime
  rw [left, show t.retry = 3 * SystemTime.nanos + 2 * t.delay + t.latency from rfl]
  generalize later * (3 * SystemTime.nanos + 2 * t.delay + t.latency) = rest at *
  omega

theorem elsewhereGet {db : Store} {i : Interference Ipv4Network LeaseAttrs} (elsewhere : Elsewhere sn i)
    (found : db.get sn = some kv) : (interfere Codec.plain db i).get sn = db.get sn := by
  cases i with
  | put other => exact Etcd.getPut.trans (if_neg elsewhere)
  | create other => exact presentKept (.inl (by simp [found]))
  | expire k =>
    change (db.deleteWhere Codec.plain (fun kv => decide (kv.key = k))).get sn = _
    have other : kv.key ≠ k := fun same => elsewhere (same.symm.trans (Etcd.getSome found).2)
    rw [Etcd.getDeleteWhere, found]
    simp [Option.filter, other]

theorem storeKeeps {db : Store} (keeps : Keeps t sn attrs x s kv) (value : kv.value = attrs) (same : db.get sn = x.db.get sn) :
    Keeps t sn attrs (x.store db) s kv where
  going := keeps.going
  subnet := keeps.subnet
  own := keeps.own
  entry := same.trans keeps.entry
  present := List.mem_cons_self
  stood := by
    intro past member
    rcases List.mem_cons.mp member with rfl | old
    · exact ⟨kv, same.trans keeps.entry, value, Nat.le_refl _⟩
    · exact keeps.stood past old
  tries := keeps.tries
  inTime := keeps.inTime
  short := keeps.short

theorem keptValue (keeps : Keeps t sn attrs x s kv) : kv.value = attrs := by
  obtain ⟨old, found, value, _⟩ := keeps.stood x.db keeps.present
  cases Option.some.inj (keeps.entry.symm.trans found)
  exact value

/- The entry's lease is not over while its next renewal is not. -/
theorem lapsedOther {id : Int} {now : Nat} (keeps : Keeps t sn attrs x s kv) (ended : x.ends id < now)
    (due : now ≤ x.since + s.dur + t.delay + t.latency) : (x.db.revoke Codec.plain id).get sn = x.db.get sn := by
  have inTime := keeps.inTime
  have alive : kv.lease ≠ id := by
    intro same
    rw [← same] at ended
    omega
  rw [Etcd.revoke, Etcd.getDeleteWhere, keeps.entry]
  simp [Option.filter, alive]

/- The loop goes on with the last lease that it is told of. -/
theorem handledLast {minutes : UInt32} (nonempty : events ≠ []) (puts : ∀ e ∈ events, e.1.eventType = .put)
    (left : ∀ e ∈ events, e.2 + renewMargin minutes ≤ e.1.lease.expiration) :
    ∃ e ∈ events, s.handleEvents minutes events =
      .ok ⟨e.1.lease, e.1.lease.expiration - e.2 - renewMargin minutes⟩ := by
  induction events generalizing s with
  | nil => contradiction
  | cons first rest ih =>
    rw [List.forall_mem_cons] at puts left
    obtain ⟨e, now⟩ := first
    have kind : e.eventType = .put := puts.1
    unfold Renewal.handleEvents
    simp only [kind, Renewal.nextDurIff.mpr left.1, bind, Except.bind]
    cases rest with
    | nil => exact ⟨(e, now), List.mem_cons_self, rfl⟩
    | cons second later =>
      obtain ⟨last, member, done⟩ := @ih ⟨e.lease, e.lease.expiration - now - renewMargin minutes⟩ (by simp) puts.2 left.2
      exact ⟨last, List.mem_cons_of_mem _ member, done⟩

theorem receivedKeeps (enough : t.Enough) (keeps : Keeps t sn attrs x s kv) (tells : Tells t sn x events since) :
    Kept t sn attrs (x.step t.minutes (.received events since)) := by
  have puts : ∀ e ∈ events, e.1.eventType = .put := by
    intro e member
    cases kind : e.1.eventType with
    | put => rfl
    | delete =>
      obtain ⟨past, old, gone⟩ := tells.deletes e member kind
      obtain ⟨_, found, _⟩ := keeps.stood past old
      exact absurd (gone.symm.trans found) (by simp)
  obtain ⟨e, member, handled⟩ := @handledLast s events t.minutes tells.nonempty puts
    (fun e member => tells.left e member (puts e member))
  obtain ⟨subnet, past, old, kv', found, own, late⟩ := tells.puts e member (puts e member)
  obtain ⟨stood, found', value, ends⟩ := keeps.stood past old
  cases Option.some.inj (found.symm.trans found')
  refine ⟨⟨e.1.lease, e.1.lease.expiration - e.2 - renewMargin t.minutes⟩, kv, ?_, subnet, own.trans value, keeps.entry, keeps.present, keeps.stood, Nat.zero_le _, ?_, ?_⟩
  · rw [step, Renewal.step, keeps.going]
    exact handled
  · exact reckonedInTime enough (tells.left e member (puts e member)) (Nat.le_trans late (Nat.add_le_add_right ends _))
      (tells.next e member).2
  · exact Nat.le_trans keeps.short (Nat.add_le_add_right tells.began _)

/- A renewal that failed, and whose put was not applied, leaves the own entry as it was. -/
theorem failedKeepsEntry {lease : Lease} {db : Store} (failed : rpc.renewed = none) (seen : ¬rpc.AppliedUnseen)
    (fresh : FreshGrant rpc db) : (renewLease Codec.plain lease rpc db).2.get sn = db.get sn := by
  change (updateSubnet Codec.plain lease.subnet lease.attrs rpc db).2.get sn = _
  unfold updateSubnet
  cases granted : rpc.grant with
  | error message => rfl
  | ok grant =>
    obtain ⟨id, ttl⟩ := grant
    simp only
    cases answer : rpc.answer with
    | answered => simp [WriteRpc.renewed, granted, answer] at failed
    | lost message => exact absurd ⟨(id, ttl), message, granted, answer⟩ seen
    | rejected message => exact revokedElsewhere (fresh id ttl granted) rfl

theorem renewedPuts {lease : Lease} {db : Store} {secs : Nat} (given : rpc.renewed = some secs) :
    ∃ id ttl, rpc.grant = .ok (id, ttl) ∧ secs = asU64 ttl ∧
      (renewLease Codec.plain lease rpc db).2 = db.put Codec.plain ⟨lease.subnet, lease.attrs, id⟩ := by
  change ∃ id ttl, _ ∧ _ ∧ (updateSubnet Codec.plain lease.subnet lease.attrs rpc db).2 = _
  unfold WriteRpc.renewed at given
  unfold updateSubnet
  cases granted : rpc.grant with
  | error message => simp [granted] at given
  | ok grant =>
    obtain ⟨id, ttl⟩ := grant
    cases answer : rpc.answer with
    | rejected message => simp [granted, answer] at given
    | lost message => simp [granted, answer] at given
    | answered =>
      simp only [granted, answer, Option.some.injEq] at given
      exact ⟨id, ttl, rfl, given.symm, rfl⟩

/- No entry so far is attached to the lease that is granted. -/
theorem endsStay {woken granted : Nat} {past : Store} {old : KeyValue Ipv4Network LeaseAttrs}
    (renews : Renews t x s rpc woken granted read since) (member : past ∈ x.past) (found : past.get sn = some old) :
    x.granted rpc granted old.lease = x.ends old.lease := by
  unfold Held.granted
  cases given : rpc.grant with
  | error message => rfl
  | ok grant =>
    have other := renews.fresh grant.1 grant.2 given past member old (Etcd.getSome found).1
    exact Function.update_of_ne other _ _

theorem renewsLater {woken granted : Nat} (renews : Renews t x s rpc woken granted read since) :
    x.since ≤ granted ∧ granted ≤ since :=
  ⟨Nat.le_trans renews.began renews.grant.1, Nat.le_trans renews.grant.2 (Nat.le_trans renews.next.1 renews.next.2.1)⟩

theorem renewsInTime {woken granted : Nat} (enough : t.Enough) (renews : Renews t x s rpc woken granted read since) :
    Renewal.InTime t.minutes (.slept rpc x.db read : LoopEvent Ipv4Network LeaseAttrs) := by
  have long := enough.long
  obtain ⟨later, begins, soon⟩ := renews.next
  constructor
  · intro r reckoned
    obtain ⟨secs, given, rfl⟩ : ∃ secs, rpc.renewed = some secs ∧ (rpc.now + secs * SystemTime.nanos, read) = r := by
      simpa [LoopEvent.reckoned] using reckoned
    rw [renews.lasts secs given]
    change read + renewMargin t.minutes ≤ rpc.now + t.ttl * SystemTime.nanos
    have promptly : read ≤ rpc.now + t.delay := Nat.le_trans begins soon
    generalize renewMargin t.minutes = m at *
    generalize t.ttl * SystemTime.nanos = lasting at *
    omega
  · intro secs given
    rw [renews.lasts secs given]
    exact renews.shown

theorem failedKeeps {woken granted : Nat} (keeps : Keeps t sn attrs x s kv)
    (renews : Renews t x s rpc woken granted read since) (failed : rpc.renewed = none)
    (turned : s.turn Codec.plain t.minutes (.slept rpc x.db read) = .ok { s with dur := 3 * SystemTime.nanos }) :
    Kept t sn attrs (x.step t.minutes (.slept rpc woken granted read since)) := by
  have more := renews.again failed
  obtain ⟨later, begins, soon⟩ := renews.next
  have entry : (x.written rpc).get sn = x.db.get sn := by
    rw [written, keeps.going]
    exact failedKeepsEntry failed renews.seen (fun id ttl given => renews.fresh id ttl given x.db keeps.present)
  have own := endsStay renews keeps.present keeps.entry
  have fewer : (x.step t.minutes (.slept rpc woken granted read since)).failed = x.failed + 1 := by
    rw [step, failed]
    rfl
  refine ⟨{ s with dur := 3 * SystemTime.nanos }, kv, ?_, keeps.subnet, keeps.own, entry.trans keeps.entry, List.mem_cons_self, ?_, ?_, ?_, ?_⟩
  · rw [step, Renewal.step, keeps.going]
    exact turned
  · intro past member
    change ∃ old : KeyValue Ipv4Network LeaseAttrs, _ ∧ _ ∧ x.granted rpc granted old.lease ≤ x.granted rpc granted kv.lease
    rw [own]
    rcases List.mem_cons.mp member with rfl | earlier
    · exact ⟨kv, entry.trans keeps.entry, keptValue keeps, Nat.le_of_eq own⟩
    · obtain ⟨old, found, value, before⟩ := keeps.stood past earlier
      refine ⟨old, found, value, ?_⟩
      rw [endsStay renews earlier found]
      exact before
  · rw [fewer]
    exact more
  · rw [fewer]
    change _ ≤ x.granted rpc granted kv.lease
    rw [own]
    exact retriedInTime more renews.punctual renews.answered soon keeps.inTime
  · change x.granted rpc granted kv.lease ≤ since + _
    rw [own]
    obtain ⟨earlier, start⟩ := renewsLater renews
    exact Nat.le_trans keeps.short (Nat.add_le_add_right (Nat.le_trans earlier start) _)

theorem renewedKeeps {woken granted secs : Nat} (enough : t.Enough) (keeps : Keeps t sn attrs x s kv)
    (renews : Renews t x s rpc woken granted read since) (given : rpc.renewed = some secs)
    (turned : s.turn Codec.plain t.minutes (.slept rpc x.db read) = .ok {
      lease := { s.lease with expiration := rpc.now + secs * SystemTime.nanos }
      dur := rpc.now + secs * SystemTime.nanos - read - renewMargin t.minutes }) :
    Kept t sn attrs (x.step t.minutes (.slept rpc woken granted read since)) := by
  obtain ⟨id, ttl, grant, lasting, put⟩ := @renewedPuts rpc s.lease x.db secs given
  cases renews.lasts secs given
  obtain ⟨expiration, made⟩ : ∃ expiration, expiration = rpc.now + t.ttl * SystemTime.nanos := ⟨_, rfl⟩
  rw [← made] at turned
  obtain ⟨later, begins, soon⟩ := renews.next
  obtain ⟨begun, start⟩ := renewsLater renews
  have db : x.written rpc = x.db.put Codec.plain ⟨s.lease.subnet, s.lease.attrs, id⟩ := by
    rw [written, keeps.going]
    exact put
  have entry : (x.written rpc).get sn = some ⟨s.lease.subnet, s.lease.attrs, id⟩ := by
    rw [db, Etcd.getPut, if_pos keeps.subnet]
  have ends : x.granted rpc granted id = granted + t.ttl * SystemTime.nanos := by
    rw [Held.granted, grant, lasting]
    exact Function.update_self _ _ _
  have fewer : (x.step t.minutes (.slept rpc woken granted read since)).failed = 0 := by
    rw [step, given]
    rfl
  refine ⟨⟨{ s.lease with expiration }, expiration - read - renewMargin t.minutes⟩, ⟨s.lease.subnet, s.lease.attrs, id⟩, ?_, ?_, ?_, entry, List.mem_cons_self, ?_, ?_, ?_, ?_⟩
  · rw [step, Renewal.step, keeps.going]
    exact turned
  · exact keeps.subnet
  · exact keeps.own
  · intro past member
    change ∃ old : KeyValue Ipv4Network LeaseAttrs, _ ∧ _ ∧ x.granted rpc granted old.lease ≤ x.granted rpc granted id
    rw [ends]
    rcases List.mem_cons.mp member with rfl | earlier
    · exact ⟨_, entry, keeps.own, Nat.le_of_eq ends⟩
    · obtain ⟨old, found, value, older⟩ := keeps.stood past earlier
      refine ⟨old, found, value, ?_⟩
      rw [endsStay renews earlier found]
      -- the entry's lease was granted before this sleep began
      exact Nat.le_trans older (Nat.le_trans keeps.short (Nat.add_le_add_right begun _))
  · rw [fewer]
    exact Nat.zero_le _
  · rw [fewer]
    change _ ≤ x.granted rpc granted id
    have left : read + renewMargin t.minutes ≤ expiration := made ▸
      (renewsInTime enough renews).1 (rpc.now + t.ttl * SystemTime.nanos, read) (by simp [LoopEvent.reckoned, given])
    have answered : rpc.now ≤ granted + t.latency := Nat.le_trans renews.answered (Nat.add_le_add_right renews.grant.1 _)
    refine reckonedInTime enough left ?_ ?_
    · rw [ends, made, Nat.add_right_comm]
      exact Nat.add_le_add_right answered _
    · exact Nat.le_trans soon (Nat.add_le_add_right later _)
  · change x.granted rpc granted id ≤ since + _
    rw [ends]
    exact Nat.add_le_add_right start _

theorem stepKeeps (enough : t.Enough) {tick : Tick} (kept : Kept t sn attrs x) (timely : Timely t sn x tick) :
    Kept t sn attrs (x.step t.minutes tick) := by
  obtain ⟨s, kv, keeps⟩ := kept
  cases tick with
  | received events since => exact receivedKeeps enough keeps timely
  | others i => exact ⟨s, kv, storeKeeps keeps (keptValue keeps) (elsewhereGet timely keeps.entry)⟩
  | lapsed id now => exact ⟨s, kv, storeKeeps keeps (keptValue keeps) (lapsedOther keeps timely.1 (timely.2 s keeps.going))⟩
  | slept rpc woken granted read since =>
    have renews := timely s keeps.going
    rcases Renewal.sleptInTime Codec.plain s (renewsInTime enough renews) with ⟨failed, turned⟩ | ⟨secs, given, turned⟩
    · exact failedKeeps keeps renews failed turned
    · exact renewedKeeps enough keeps renews given turned

/- A second for a task, two for a write, and three renewals may fail. -/
private def dayTiming : Timing := { minutes := 60, ttl := 86400, delay := 1000000000, latency := 2000000000, retries := 3 }

private def dayLease : Lease :=
  { Lease.default 0 with subnet := cidr 0x0A000100 24, expiration := 86401000000000, attrs := { publicIp := 1 } }

private def dayStore : Store := Etcd.empty.put Codec.plain ⟨cidr 0x0A000100 24, { publicIp := 1 }, 5⟩

private def dayBegun : Held := began 60 dayLease 0 500000000 dayStore (fun _ => 86400000000000)

private def refusedRenewal : WriteRpc where
  grant := .error "etcdserver: request timed out"
  answer := .answered
  revoked := true
  now := 82803000000000

private def dayRenewal : WriteRpc where
  grant := .ok (8, 86400)
  answer := .answered
  revoked := true
  now := 82808000000000

private def renewedEvent : LeaseWatchEvent :=
  { lease := { dayLease with expiration := 169208000000000 }, eventType := .put }

private def dayTicks : List Tick := [
  .slept refusedRenewal 82801500000000 82802000000000 82803000000000 82803500000000,
  .slept dayRenewal 82806500000000 82807000000000 82808000000000 82808000000000,
  .received [(renewedEvent, 82808000000000)] 82809000000000,
  .lapsed 5 86400000000001,
  .others (.create ⟨cidr 0x0A000100 24, { publicIp := 2 }, 9⟩)]

private theorem dayTimely : Along (step 60) (Timely dayTiming dayLease.subnet) dayBegun dayTicks := by
  refine ⟨?failed, ?renewed, ?told, ⟨by decide, ?lapsed⟩, ?other, trivial⟩
  case failed =>
    intro s going
    have first : dayBegun.loop = .ok ⟨dayLease, 82801000000000⟩ := by decide
    cases Except.ok.inj (going.symm.trans first)
    constructor
    case fresh => rintro id ttl ⟨⟩
    case seen => rintro ⟨_, _, ⟨⟩, _⟩
    case lasts => rintro secs ⟨⟩
    all_goals decide
  case renewed =>
    intro s going
    have retry : Renewal.step Codec.plain 60 dayBegun.loop (.slept refusedRenewal dayStore 82803000000000) =
        .ok ⟨dayLease, 3000000000⟩ := by decide
    cases Except.ok.inj (going.symm.trans retry)
    constructor
    case fresh =>
      rintro id ttl ⟨⟩
      decide
    case seen => rintro ⟨_, _, _, ⟨⟩⟩
    case lasts =>
      rintro secs ⟨⟩
      decide
    all_goals decide
  case told =>
    constructor
    case nonempty => exact List.cons_ne_nil _ _
    case puts =>
      intro e member _
      cases List.mem_singleton.mp member
      exact ⟨rfl, _, List.mem_cons_self, ⟨cidr 0x0A000100 24, { publicIp := 1 }, 8⟩, by decide, by decide, by decide⟩
    case deletes =>
      intro e member kind
      cases List.mem_singleton.mp member
      contradiction
    all_goals decide
  case lapsed =>
    intro s going
    have told : (run (step 60) dayBegun (dayTicks.take 3)).loop = .ok ⟨renewedEvent.lease, 82800000000000⟩ := by decide
    cases Except.ok.inj (going.symm.trans told)
    decide
  case other => trivial

end Held
end FlannelNg
