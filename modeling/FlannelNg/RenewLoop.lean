import FlannelNg.Cluster

/-! The loop that renews a lease. It sleeps until the margin before the expiration and
computes that time with unsigned durations: a lease with less than the margin left is a
panic, and one that has expired is an error. -/
namespace FlannelNg
open Cidr Outcome Runs

/- `later.duration_since(earlier)?`, in nanoseconds -/
def SystemTime.durationSince (later earlier : SystemTime) : Res Nat :=
  if earlier ≤ later then .ok (later - earlier)
  else .error (.bail "second time provided was later than self")

/- `Duration - Duration` -/
def subDuration (x y : Nat) : Res Nat := if y ≤ x then .ok (x - y) else .error .panicked

def renewMargin (minutes : UInt32) : Nat := 60 * minutes.toNat * SystemTime.nanos

def nextDur (minutes : UInt32) (expiration now : SystemTime) : Res Nat := do
  let left ← expiration.durationSince now
  subDuration left (renewMargin minutes)

structure Renewal where
  lease : Lease
  dur : Nat
  deriving DecidableEq

/- What a round of the loop takes up: the end of the sleep, with the answers to the renewal
and the clock reading after it; a batch of the own watch, with a reading for each event; or
that the watch has ended. -/
inductive LoopEvent (K V : Type) where
  | slept (rpc : WriteRpc) (db : Etcd K V) (now : SystemTime)
  | received (events : List (LeaseWatchEvent × SystemTime))
  | closed

namespace Renewal

def start (minutes : UInt32) (lease : Lease) (now : SystemTime) : Res Renewal := do
  let dur ← nextDur minutes lease.expiration now
  return ⟨lease, dur⟩

def handleEvents (minutes : UInt32) : Renewal → List (LeaseWatchEvent × SystemTime) → Res Renewal
  | s, [] => .ok s
  | _, (e, now) :: rest =>
    match e.eventType with
    | .put => do
      let dur ← nextDur minutes e.lease.expiration now
      handleEvents minutes ⟨e.lease, dur⟩ rest
    | .delete => .error (.bail "lease deleted")

section Loop
variable {K V : Type} [DecidableEq K] (codec : Codec K V) (minutes : UInt32)

/- A closed channel disables its branch only, the sleep goes on: `else` is never reached. -/
def turn (s : Renewal) : LoopEvent K V → Res Renewal
  | .slept rpc db now =>
    match (renewLease codec s.lease rpc db).1 with
    | .error (.bail _) => .ok { s with dur := 3 * SystemTime.nanos }
    | .error stop => .error stop
    | .ok lease => do
      let dur ← nextDur minutes lease.expiration now
      return ⟨lease, dur⟩
  | .received events => s.handleEvents minutes events
  | .closed => .ok s

def step (x : Res Renewal) (ev : LoopEvent K V) : Res Renewal := x >>= fun s => s.turn codec minutes ev

end Loop
end Renewal

/- The seconds that a renewal gives the lease, when it succeeds. -/
def WriteRpc.renewed (rpc : WriteRpc) : Option Nat :=
  match rpc.grant, rpc.answer with
  | .ok (_, ttl), .answered => some (asU64 ttl)
  | _, _ => none

namespace LoopEvent
variable {K V : Type}

/- The expirations from which the round computes a sleep, each with the clock reading. -/
def reckoned : LoopEvent K V → List (SystemTime × SystemTime)
  | .slept rpc _ now => (rpc.renewed.map (fun secs => (rpc.now + secs * SystemTime.nanos, now))).toList
  | .received events => (events.takeWhile (fun e => e.1.eventType = .put)).map (fun e => (e.1.lease.expiration, e.2))
  | .closed => []

def Deletes : LoopEvent K V → Prop
  | .received events => ∃ e ∈ events, e.1.eventType = .delete
  | _ => False

/- A successful renewal ends at a time that the clock can show. -/
def Shown : LoopEvent K V → Prop
  | .slept rpc _ _ => ∀ secs, rpc.renewed = some secs → rpc.now / SystemTime.nanos + secs < 2 ^ 63
  | _ => True

end LoopEvent

namespace Renewal
variable {K V : Type} {minutes : UInt32} {s s' : Renewal} {ev : LoopEvent K V}
variable {events : List (LeaseWatchEvent × SystemTime)}

theorem durationSinceIff {later earlier : Nat} : SystemTime.durationSince later earlier = .ok (later - earlier) ↔
    earlier ≤ later := by
  unfold SystemTime.durationSince
  split <;> simp_all

theorem subDurationIff {x y : Nat} : subDuration x y = .ok (x - y) ↔ y ≤ x := by
  unfold subDuration
  split <;> simp_all

theorem nextDurIff {expiration now : Nat} : nextDur minutes expiration now = .ok (expiration - now - renewMargin minutes) ↔
    now + renewMargin minutes ≤ expiration := by
  simp only [nextDur, bindOk]
  generalize renewMargin minutes = margin
  constructor
  · rintro ⟨left, since, sub⟩
    have before : now ≤ expiration := by
      by_contra late
      rw [SystemTime.durationSince, if_neg late] at since
      contradiction
    cases Except.ok.inj (since.symm.trans (durationSinceIff.mpr before))
    have margin := subDurationIff.mp sub
    omega
  · intro enough
    exact ⟨expiration - now, durationSinceIff.mpr (by omega), subDurationIff.mpr (by omega)⟩

/- Without the durations it is the loop of the cluster's nodes. -/
theorem handleEventsFollow (ok : s.handleEvents minutes events = .ok s') :
    follow s.lease (events.map Prod.fst) = some s'.lease := by
  induction events generalizing s with
  | nil => exact congrArg (some ·.lease) (Except.ok.inj ok)
  | cons first rest ih =>
    obtain ⟨e, now⟩ := first
    unfold handleEvents at ok
    rw [List.map_cons]
    unfold follow
    cases kind : e.eventType with
    | delete => simp [kind] at ok
    | put =>
      simp only [kind, bindOk] at ok
      obtain ⟨dur, _, later⟩ := ok
      exact ih later

theorem handleEventsInTime (left : ∀ r ∈ (LoopEvent.received events : LoopEvent K V).reckoned, r.2 + renewMargin minutes ≤ r.1) :
    (∃ s', s.handleEvents minutes events = .ok s' ∧ (s' = s ∨
        ∃ now, (s'.lease.expiration, now) ∈ (LoopEvent.received events : LoopEvent K V).reckoned ∧
          s'.dur = s'.lease.expiration - now - renewMargin minutes)) ∨
      s.handleEvents minutes events = .error (.bail "lease deleted") ∧ ∃ e ∈ events, e.1.eventType = .delete := by
  induction events generalizing s with
  | nil => exact .inl ⟨s, rfl, .inl rfl⟩
  | cons first rest ih =>
    obtain ⟨e, now⟩ := first
    unfold handleEvents
    cases kind : e.eventType with
    | delete => exact .inr ⟨rfl, (e, now), List.mem_cons_self, kind⟩
    | put =>
      have all : (LoopEvent.received ((e, now) :: rest) : LoopEvent K V).reckoned =
          (e.lease.expiration, now) :: (LoopEvent.received rest : LoopEvent K V).reckoned := by
        simp [LoopEvent.reckoned, kind]
      rw [all, List.forall_mem_cons] at left
      have dur := nextDurIff.mpr left.1
      rw [all]
      rcases @ih ⟨e.lease, e.lease.expiration - now - renewMargin minutes⟩ left.2 with ⟨s', done, from_⟩ | ⟨ended, d, mem, delete⟩
      · refine .inl ⟨s', by rw [dur]; exact done, .inr ?_⟩
        rcases from_ with rfl | ⟨now', mem, last⟩
        · exact ⟨now, List.mem_cons_self, rfl⟩
        · exact ⟨now', List.mem_cons_of_mem _ mem, last⟩
      · exact .inr ⟨by rw [dur]; exact ended, d, List.mem_cons_of_mem _ mem, delete⟩

variable [DecidableEq K] {codec : Codec K V} {lease : Lease} {rpc : WriteRpc} {db : Etcd K V}

theorem renewLeaseIs : match rpc.renewed with
    | some secs => (renewLease codec lease rpc db).1 =
        if rpc.now / SystemTime.nanos + secs < 2 ^ 63 then
          .ok { lease with expiration := rpc.now + secs * SystemTime.nanos }
        else .error .panicked
    | none => ∃ message, (renewLease codec lease rpc db).1 = .error (.bail message) := by
  unfold WriteRpc.renewed renewLease updateSubnet
  cases rpc.grant with
  | error message => exact ⟨message, rfl⟩
  | ok grant =>
    cases rpc.answer with
    | rejected message => exact ⟨message, rfl⟩
    | lost message => exact ⟨message, rfl⟩
    | answered =>
      dsimp only [WriteRpc.expiration, SystemTime.addSecs]
      split <;> rfl

/-- Every sleep that the round computes is what is left before the margin, or nothing; the
loop goes on with the last one of them, the one it had, or three seconds after a renewal that
failed; and only a delete ends it. -/
structure OnSchedule (codec : Codec K V) (minutes : UInt32) (s : Renewal) (ev : LoopEvent K V) : Prop where
  exact : ∀ r ∈ ev.reckoned, nextDur minutes r.1 r.2 = .ok (r.1 - r.2 - renewMargin minutes)
  sleeps : ∀ s', s.turn codec minutes ev = .ok s' → s'.dur = s.dur ∨ s'.dur = 3 * SystemTime.nanos ∨
    ∃ now, (s'.lease.expiration, now) ∈ ev.reckoned ∧ s'.dur = s'.lease.expiration - now - renewMargin minutes
  ended : ∀ stop, s.turn codec minutes ev = .error stop → stop = .bail "lease deleted" ∧ ev.Deletes

/- No lease that the round looks at has less than the margin left. -/
def InTime (minutes : UInt32) (ev : LoopEvent K V) : Prop :=
  (∀ r ∈ ev.reckoned, r.2 + renewMargin minutes ≤ r.1) ∧ ev.Shown

/- The loop takes the round up only while it has not ended. -/
def WhileGoing (P : Renewal → LoopEvent K V → Prop) (x : Res Renewal) (ev : LoopEvent K V) : Prop :=
  ∀ s, x = .ok s → P s ev

theorem sleptInTime (codec : Codec K V) (s : Renewal) {now : SystemTime} (inTime : InTime minutes (.slept rpc db now)) :
    (rpc.renewed = none ∧ s.turn codec minutes (.slept rpc db now) = .ok { s with dur := 3 * SystemTime.nanos }) ∨
      ∃ secs, rpc.renewed = some secs ∧
        s.turn codec minutes (.slept rpc db now) = .ok {
          lease := { s.lease with expiration := rpc.now + secs * SystemTime.nanos }
          dur := rpc.now + secs * SystemTime.nanos - now - renewMargin minutes } := by
  obtain ⟨left, shown⟩ := inTime
  have renewal := @renewLeaseIs _ _ _ codec s.lease rpc db
  cases given : rpc.renewed with
  | none =>
    rw [given] at renewal
    obtain ⟨message, failed⟩ := renewal
    exact .inl ⟨rfl, by simp only [turn, failed]⟩
  | some secs =>
    rw [given] at renewal
    have fits : rpc.now / SystemTime.nanos + secs < 2 ^ 63 := shown secs given
    have renewal := Eq.trans renewal (if_pos fits)
    have dur := nextDurIff.mpr (left (rpc.now + secs * SystemTime.nanos, now) (by simp [LoopEvent.reckoned, given]))
    refine .inr ⟨secs, rfl, ?_⟩
    simp only [turn, renewal, dur]
    rfl

/- A round in time goes on as it should, or ends at a delete. -/
theorem turnInTime (codec : Codec K V) (s : Renewal) (inTime : InTime minutes ev) :
    (∃ s', s.turn codec minutes ev = .ok s' ∧ (s'.dur = s.dur ∨ s'.dur = 3 * SystemTime.nanos ∨
        ∃ now, (s'.lease.expiration, now) ∈ ev.reckoned ∧ s'.dur = s'.lease.expiration - now - renewMargin minutes)) ∨
      s.turn codec minutes ev = .error (.bail "lease deleted") ∧ ev.Deletes := by
  cases ev with
  | closed => exact .inl ⟨s, rfl, .inl rfl⟩
  | received events =>
    rcases handleEventsInTime (s := s) inTime.1 with ⟨s', handled, same | last⟩ | ended
    · exact .inl ⟨s', handled, .inl (congrArg Renewal.dur same)⟩
    · exact .inl ⟨s', handled, .inr (.inr last)⟩
    · exact .inr ended
  | slept rpc db now =>
    rcases sleptInTime codec s inTime with ⟨_, later⟩ | ⟨secs, given, renewed⟩
    · exact .inl ⟨_, later, .inr (.inl rfl)⟩
    · exact .inl ⟨_, renewed, .inr (.inr ⟨now, by simp [LoopEvent.reckoned, given], rfl⟩)⟩

theorem onScheduleIff : OnSchedule codec minutes s ev ↔ InTime minutes ev := by
  constructor
  · intro schedule
    refine ⟨fun r mem => nextDurIff.mp (schedule.exact r mem), ?_⟩
    cases ev with
    | received events => trivial
    | closed => trivial
    | slept rpc db now =>
      -- a renewal whose end cannot be shown panics, and that is not a delete
      intro secs given
      by_contra unshown
      have renewal := @renewLeaseIs _ _ _ codec s.lease rpc db
      rw [given] at renewal
      have renewal := Eq.trans renewal (if_neg unshown)
      have panicked : s.turn codec minutes (.slept rpc db now) = .error .panicked := by simp only [turn, renewal]
      exact (schedule.ended _ panicked).2
  · intro inTime
    refine ⟨fun r mem => nextDurIff.mpr (inTime.1 r mem), fun s' done => ?_, fun stop failed => ?_⟩
    · rcases turnInTime codec s inTime with ⟨s'', same, sleeps⟩ | ⟨ended, _⟩
      · cases Except.ok.inj (done.symm.trans same)
        exact sleeps
      · exact absurd (done.symm.trans ended) (by simp)
    · rcases turnInTime codec s inTime with ⟨s', same, _⟩ | ⟨ended, deletes⟩
      · exact absurd (failed.symm.trans same) (by simp)
      · exact ⟨Except.error.inj (failed.symm.trans ended), deletes⟩

theorem scheduleNeverCrashesIff (codec : Codec K V) (minutes : UInt32) (lease : Lease) (now : SystemTime)
    (events : List (LoopEvent K V)) :
    nextDur minutes lease.expiration now = .ok (lease.expiration - now - renewMargin minutes) ∧
        Along (step codec minutes) (WhileGoing (OnSchedule codec minutes)) (start minutes lease now) events ↔
      now + renewMargin minutes ≤ lease.expiration ∧
        Along (step codec minutes) (WhileGoing (fun _ => InTime minutes)) (start minutes lease now) events := by
  refine and_congr nextDurIff (alongCongr (fun _ => True) (fun x ev _ => ?_) (fun _ _ _ _ => trivial) trivial)
  exact forall₂_congr (fun _ _ => onScheduleIff)

end Renewal

/- What is left of the lease of a node that starts again. -/
private def halfHourLease : Lease := { Lease.default 0 with expiration := 1800 * SystemTime.nanos }

theorem shortLeasePanics : Renewal.start 60 halfHourLease 0 = .error .panicked ∧
    ¬nextDur 60 halfHourLease.expiration 0 = .ok (halfHourLease.expiration - 0 - renewMargin 60) := by
  decide

end FlannelNg
