import Turnstile.Proofs.Metering.Gates
import Turnstile.Proofs.Metering.Outlet
import Turnstile.Proofs.Metering.Rounding
import Turnstile.Proofs.Settings.Fitting

/-!
# Whom settings that fit together let in

Settings are checked before they are used, and the check is meant to rule out buckets that deny
everything. It does so for outbound bytes: a write asks for no more than the bucket can hold, and is
told no only after a shutdown (`Outlet.Trusting.run`). Connections and requests come one at a time
and are let in exactly if the bucket can hold one (`admits_exactly`), which is not checked for them
(`half_a_connection_denied`).
-/

namespace Turnstile.Metering

open Quantity Bucket

/-! ### Sizes that fit -/

/-- One unit is not too much to ask of a bucket with these settings. -/
def BucketSettings.MeetsOne {α : Type} [Quantity α] (s : BucketSettings α) : Prop :=
  s.partialGrants = true ∨ ¬ s.maxBurst + slack < ofNat 1

theorem BucketSettings.meetsOne_of_large {s : BucketSettings Float}
    (finite : s.maxBurst.isFinite = true) (large : ¬ s.maxBurst < 1.0) : s.MeetsOne :=
  .inr (Doubles.not_exceeds finite large Nat.one_pos (by decide) (Nat.le_max_right _ _))

/-- A write never asks for more than the bucket can hold, if it can hold a byte. -/
theorem Meter.requestSize_fits {t : Terms Float} (finite : t.capacity.isFinite = true)
    (fits : t.partialGrants = true ∨ ¬ t.capacity < 1.0) {length : Nat} (pos : 0 < length)
    (word : length < 2 ^ 64) : exceeds t (ofNat (requestSize t length)) = false := by
  rw [exceeds_eq_false_iff]
  by_cases bitwise : t.partialGrants = true
  · exact .inl bitwise
  · have most : requestSize t length ≤ max (whole t.capacity) 1 := by
      unfold requestSize
      rw [if_neg bitwise]
      exact Nat.min_le_right _ _
    exact .inr (Doubles.not_exceeds finite (fits.resolve_left bitwise) (requestSize_pos t pos)
      (Nat.lt_of_le_of_lt (requestSize_le t length) word) most)

/-! ### Streams that are told no -/

/-- An attempt is denied only if the grant that it has to have is. -/
theorem Meter.write_ne_denied {α ε : Type} [Quantity α] (m : Meter) (terms : Option (Terms α))
    (length : Nat) {status : GrantStatus} (untold : status ≠ .denied) (below : Nat → Offer ε) :
    (m.write terms length status (Offer.bounded below)).1 ≠ .denied := by
  have offered (m : Meter) : (m.offer length (Offer.bounded below)).1 ≠ .denied := by
    rw [offer_bounded]
    exact answer_ne_denied below _
  unfold write
  split
  · exact answer_ne_denied below length
  · split
    · exact answer_ne_denied below 0
    · split
      · exact offered m
      · cases status with
        | waiting => exact nofun
        | denied => exact absurd rfl untold
        | granted => exact offered _

/-- Who has no credit and is answered has nothing outstanding any more. -/
theorem Meter.write_answered {α ε : Type} [Quantity α] {m : Meter} (credit : m.credit = 0)
    (t : Terms α) {length : Nat} (pos : 0 < length) {status : GrantStatus}
    (answered : status ≠ .waiting) (below : Nat → Offer ε) :
    (m.write (some t) length status (Offer.bounded below)).2.outstanding = none := by
  unfold write
  dsimp only
  rw [if_neg (Nat.ne_of_gt pos), credit, if_neg (Nat.lt_irrefl 0)]
  cases status with
  | waiting => exact absurd rfl answered
  | denied => rfl
  | granted => rw [offer_bounded]

variable {τ α β ε : Type} [Quantity α] [Clock τ α]

/-- Nobody in line is told no but by a shutdown. -/
theorem Bucket.closed_of_denied (b : Bucket τ α) (now : τ) (a : Action α) {r : Resolution τ α}
    (sent : r ∈ (b.perform now a).2.sent) (no : r.grant.granted = false) :
    (b.perform now a).1.closed = true := by
  cases a with
  | takeNow | request | hangUp | withdraw => cases sent
  | pass =>
    have yes := serve_granted b.terms now (b.volumeAt now) b.waiters r sent
    exact absurd (no.symm.trans yes) Bool.false_ne_true
  | denyAll => exact notify_closed _

namespace Outlet

/-- A stream keeps no denial for a later write unless its bucket is shut. -/
def Trusting (x : Outlet τ α β) : Prop := x.ticket.status = .denied → x.bucket.closed = true

variable {x : Outlet τ α β}

theorem Trusting.act (trusting : x.Trusting) (now : τ) (a : Action α) : (x.act now a).Trusting := by
  unfold Outlet.act
  split
  · exact trusting
  · dsimp only
    intro told
    cases ticket : x.ticket with
    | none =>
      rw [ticket] at told
      cases told
    | answered grant =>
      have before : x.ticket.status = .denied := by
        rw [ticket] at told ⊢
        exact told
      exact perform_closed (trusting before) now a
    | waiting id =>
      rw [ticket] at told
      dsimp only [Ticket.settle] at told
      split at told
      · next r found =>
        have no : r.grant.granted = false := by
          simpa [Ticket.status] using told
        exact x.bucket.closed_of_denied now a (List.mem_of_find?_eq_some found) no
      · cases told

omit [Clock τ α] in
/-- An attempt leaves the bucket alone and at most uses up the answer. -/
theorem attempt_ticket (x : Outlet τ α β) (bytes : List β) (below : Nat → Offer ε) :
    (x.attempt bytes below).2.bucket = x.bucket ∧
      ((x.attempt bytes below).2.ticket = x.ticket ∨
        (x.attempt bytes below).2.ticket = .none) := by
  unfold attempt
  dsimp only
  split
  · exact ⟨rfl, .inr rfl⟩
  · exact ⟨rfl, .inl rfl⟩

omit [Clock τ α] in
theorem Trusting.attempt (trusting : x.Trusting) (bytes : List β) (below : Nat → Offer ε) :
    (x.attempt bytes below).2.Trusting := by
  obtain ⟨bucket, same | none⟩ := x.attempt_ticket bytes below
  · unfold Trusting
    rw [bucket, same]
    exact trusting
  · intro told
    rw [none] at told
    cases told

theorem Trusting.write (trusting : x.Trusting) (now : τ) (bytes : List β)
    (below : Nat → Offer ε) : (x.write now bytes below).2.Trusting := by
  have asked := x.asked_ask now bytes.length
  unfold Outlet.write
  generalize x.ask now bytes.length = y at asked ⊢
  cases asked with
  | spared => exact trusting.attempt bytes below
  | queued =>
    refine Trusting.attempt ?_ bytes below
    intro told
    cases told
  | @answered size grant bucket _ pos within =>
    -- a denial by the bucket is told by this very attempt
    have told : (Ticket.answered grant : Ticket τ α).status ≠ .waiting := by
      unfold Ticket.status
      dsimp only
      split <;> exact nofun
    have idle := Meter.write_answered (m := ⟨0, some size⟩) rfl bucket.terms
      (Nat.lt_of_lt_of_le pos within) told below
    intro denied
    unfold Outlet.attempt at denied
    dsimp only at denied
    rw [idle] at denied
    cases denied

/-- Whatever happens to a stream and its bucket, no denial is left over for a later write unless the
bucket is shut. -/
theorem Trusting.run (trusting : x.Trusting) (events : List (τ × Event α β ε)) :
    (x.run events).Trusting := by
  induction events generalizing x with
  | nil => exact trusting
  | cons e rest ih =>
    refine ih (x := x.step e.1 e.2) ?_
    obtain ⟨now, a | ⟨bytes, below⟩⟩ := e
    · exact trusting.act now a
    · exact trusting.write now bytes below

theorem step_terms (x : Outlet τ α β) (now : τ) (e : Event α β ε) :
    (x.step now e).bucket.terms = x.bucket.terms := by
  cases e with
  | act a =>
    unfold step Outlet.act
    dsimp only
    split
    · rfl
    · exact perform_terms x.bucket now a
  | write bytes below =>
    have asked := x.asked_ask now bytes.length
    unfold step Outlet.write
    dsimp only
    rw [(attempt_ticket _ bytes below).1]
    generalize x.ask now bytes.length = y at asked ⊢
    cases asked with
    | spared => rfl
    | answered _ _ _ _ told | queued _ _ _ _ told => exact request_terms told

theorem run_terms (x : Outlet τ α β) (events : List (τ × Event α β ε)) :
    (x.run events).bucket.terms = x.bucket.terms := by
  induction events generalizing x with
  | nil => rfl
  | cons e rest ih => exact (ih (x.step e.1 e.2)).trans (x.step_terms e.1 e.2)

/-- Asking an open bucket that lets a request of this size in comes to no denial. -/
theorem Trusting.ask (trusting : x.Trusting) (opened : x.bucket.closed = false) {now : τ}
    {length : Nat}
    (admits : (x.bucket.request (ofNat (Meter.requestSize x.bucket.terms length)) now).1.admits =
      true) : (x.ask now length).ticket.status ≠ .denied := by
  have before : x.ticket.status ≠ .denied := fun told =>
    absurd (opened.symm.trans (trusting told)) Bool.false_ne_true
  unfold Outlet.ask
  split
  · exact before
  · exact before
  · split
    · dsimp only
      split
      · next grant _ told =>
        rw [told] at admits
        have yes : grant.granted = true := admits
        simp [Ticket.status, yes]
      · exact nofun
    · exact before

theorem Trusting.write_ne_denied (trusting : x.Trusting) (opened : x.bucket.closed = false)
    {now : τ} {bytes : List β}
    (admits : (x.bucket.request (ofNat (Meter.requestSize x.bucket.terms bytes.length))
      now).1.admits = true) (below : Nat → Offer ε) : (x.write now bytes below).1 ≠ .denied := by
  have untold := trusting.ask opened admits
  unfold Outlet.write Outlet.attempt
  dsimp only
  have wrote := (x.ask now bytes.length).meter.write_ne_denied
    (some (x.ask now bytes.length).bucket.terms) bytes.length untold below
  split <;> exact wrote

omit [Quantity α] [Clock τ α] in
theorem trusting_on (b : Bucket τ α) : (on b : Outlet τ α β).Trusting := by
  intro told
  cases told

/-- A write on a bucket that can hold a byte is not denied while the bucket is open and has room in
line, whatever the stream has been through. -/
theorem admits_write [Clock τ Float] {b : Bucket τ Float}
    (finite : b.terms.capacity.isFinite = true)
    (fits : b.terms.partialGrants = true ∨ ¬ b.terms.capacity < 1.0)
    (events : List (τ × Event Float β ε)) :
    let x := (on b).run events
    x.bucket.closed = false → x.bucket.isFull = false → ∀ now (bytes : List β)
      (below : Nat → Offer ε), bytes ≠ [] → bytes.length < 2 ^ 64 →
        (x.ask now bytes.length).ticket.status ≠ .denied ∧
          (x.write now bytes below).1 ≠ .denied := by
  intro x opened room now bytes below filled word
  have trusting : x.Trusting := (trusting_on b).run events
  have pos := List.length_pos_of_ne_nil filled
  have terms : x.bucket.terms = b.terms := run_terms (on b) events
  rw [← terms] at finite fits
  have small := Meter.requestSize_fits finite fits pos word
  have valid := Doubles.isValid_ofNat (Meter.requestSize_pos x.bucket.terms pos)
    (Nat.lt_of_le_of_lt (Meter.requestSize_le x.bucket.terms bytes.length) word)
  have admits := (x.bucket.admits_request_iff _ now).2 ⟨opened, valid, .inr ⟨small, room⟩⟩
  exact ⟨trusting.ask opened admits, trusting.write_ne_denied opened admits below⟩

end Outlet

/-! ### Limiters for settings that fit together -/

/-- A gate lets one in exactly if its bucket can hold one or, with nobody before it, has it. -/
theorem Limiter.admits_enter_iff [Clock τ Float] {l : Limiter τ Float} {gate : Gate}
    {b : Bucket τ Float} (there : l.bucket? gate = some b) (opened : b.closed = false)
    (room : b.isFull = false) (now : τ) :
    (l.enter gate now).1.admits = true ↔ exceeds b.terms (ofNat 1) = false ∨
      b.waiters = [] ∧ covers (b.volumeAt now) (ofNat 1) = true := by
  have valid : isValid (ofNat 1 : Float) = true := Doubles.isValid_ofNat Nat.one_pos (by decide)
  rw [admits_enter, there, Option.all_some, admits_request_iff]
  constructor
  · rintro ⟨-, -, ready | ⟨fits, -⟩⟩
    · exact .inr ready
    · exact .inl fits
  · rintro (fits | ready)
    · exact ⟨opened, valid, .inr ⟨fits, room⟩⟩
    · exact ⟨opened, valid, .inl ready⟩

/-- Whatever has happened, the bucket at a gate is there and has the terms of its settings. -/
theorem Limiter.run_terms {settings : LimitSettings α} {start : τ} {l : Limiter τ α}
    (made : create settings start = .ok l) {gate : Gate} {c : BucketSettings α}
    (some : settings.bucket? gate = some c) (steps : List (τ × Gate × Action α)) :
    ∃ b, (l.run steps).bucket? gate = .some b ∧
      b.terms.capacity = c.maxBurst ∧ b.terms.partialGrants = c.partialGrants := by
  obtain ⟨b, created, there⟩ := bucket?_of_some made some
  have same := b.after_terms (stepsAt gate steps)
  refine ⟨b.after (stepsAt gate steps), ?_, ?_⟩
  · rw [run_bucket?, there, Option.map_some]
  · rw [same]
    exact create_terms created

/-- Settings that fit together never keep a write from being granted or queued while its bucket is
open and has room in line, whatever has happened before. A connection or a request is granted or
queued exactly if its bucket can hold one or, with nobody before it, has the units already; so it is
never refused by a bucket for one or more. -/
theorem admits_exactly [Clock τ Float] {s : Settings} (sound : s.fault? = none) {start : τ}
    {l : Limiter τ Float} (made : Limiter.create s.limits start = .ok l)
    (steps : List (τ × Gate × Action Float)) :
    let l' := l.run steps
    (∀ gate, s.limits.bucket? gate = none → ∀ now, (l'.enter gate now).1.admits = true) ∧
      (∀ gate c, s.limits.bucket? gate = some c → ∃ b, l'.bucket? gate = some b ∧
        (gate = .data ∨ ¬ c.maxBurst < 1.0 → c.MeetsOne) ∧
        (b.closed = false → b.isFull = false → ∀ now, (l'.enter gate now).1.admits = true ↔
          c.MeetsOne ∨ b.waiters = [] ∧ covers (b.volumeAt now) (ofNat 1) = true)) ∧
      (s.limits.bucket? .data = none → ∀ (m : Meter) length status (below : Nat → Offer ε),
        (m.write ((l'.bucket? .data).map (·.terms)) length status (Offer.bounded below)).1 ≠
          .denied) ∧
      ∀ c, s.limits.bucket? .data = some c → ∃ b, l'.bucket? .data = some b ∧
        ∀ events : List (τ × Outlet.Event Float β ε),
          let x := (Outlet.on b).run events
          x.bucket.closed = false → x.bucket.isFull = false → ∀ now (bytes : List β)
            (below : Nat → Offer ε), bytes ≠ [] → bytes.length < 2 ^ 64 →
              (x.ask now bytes.length).ticket.status ≠ .denied ∧
                (x.write now bytes below).1 ≠ .denied := by
  intro l'
  obtain ⟨-, -, -, -, buckets, bytes⟩ := Settings.fault?_eq_none_iff.1 sound
  have finite := Settings.bucketFault?_eq_none_iff.1 buckets
  have fits := Settings.dataFault?_eq_none_iff.1 bytes
  have unlimited {gate : Gate} (absent : s.limits.bucket? gate = none) :
      l'.bucket? gate = none := by
    rw [Limiter.run_bucket?, Limiter.bucket?_of_none made absent, Option.map_none]
  refine ⟨fun gate absent now => ?_, fun gate c some => ?_, fun absent m length _ below => ?_,
    fun c some => ?_⟩
  · rw [Limiter.admits_enter, unlimited absent]
    rfl
  · obtain ⟨b, there, capacity, bitwise⟩ := Limiter.run_terms made some steps
    refine ⟨b, there, fun large => ?_, fun opened room now => ?_⟩
    · have one : c.partialGrants = true ∨ ¬ c.maxBurst < 1.0 := by
        rcases large with rfl | large
        · exact fits c some
        · exact .inr large
      exact one.elim .inl (c.meetsOne_of_large (finite gate c some).1)
    · rw [Limiter.admits_enter_iff there opened room, exceeds_eq_false_iff, capacity, bitwise]
      rfl
  · rw [unlimited absent, Option.map_none]
    exact Meter.answer_ne_denied below length
  · obtain ⟨b, there, capacity, bitwise⟩ := Limiter.run_terms made some steps
    have finite := (finite .data c some).1
    have fits := fits c some
    rw [← capacity] at finite
    rw [← capacity, ← bitwise] at fits
    exact ⟨b, there, Outlet.admits_write finite fits⟩

/-- Requests are let in bit by bit though their bucket holds half of one, and a write on a bucket of
a byte and a half asks for one byte and gets in line behind another request. -/
theorem admits_exactly_in_line :
    let half : BucketSettings Float := ⟨⟨"1/s", 1⟩, 0.5, none, none, none, true⟩
    let bytes : BucketSettings Float := ⟨⟨"1/s", 1⟩, 1.5, some 3, none, some 0, false⟩
    let s : Settings := {
      server := { listeners := [{ address := "127.0.0.1:80" }] }
      limits := { requests := some half, data := some bytes } }
    let requests : Bucket Nanos Float :=
      ⟨⟨0.5, 1, true, none, 0.5⟩, 0.5, ⟨0⟩, [], 0, false, .absent, false⟩
    let data : Bucket Nanos Float :=
      ⟨⟨1.5, 1, false, some 3, 1.5⟩, 0, ⟨0⟩, [], 0, false, .absent, false⟩
    let l : Limiter Nanos Float := { requests := some requests, data := some data }
    let l' := l.run [(⟨0⟩, .requests, .request 1), (⟨0⟩, .data, .request 1)]
    let below : Nat → Offer Unit := .accepted
    let x : Outlet Nanos Float Char := (Outlet.on (data.after [(⟨0⟩, .request 1)])).run
      [(⟨0⟩, .write ['a', 'b', 'c'] below)]
    s.fault? = none ∧ Limiter.create s.limits ⟨0⟩ = .ok l ∧
      (l'.enter .connections ⟨0⟩).1.admits = true ∧ (l'.enter .requests ⟨0⟩).1.admits = true ∧
      x.bucket.line = [0, 1] ∧ (x.write ⟨0⟩ ['a', 'b', 'c'] below).1 ≠ .denied := by
  intro half bytes s requests data l l' below x
  have sound : s.fault? = none := by decide +kernel
  have made : Limiter.create s.limits ⟨0⟩ = .ok l := by
    unfold s half bytes
    rfl
  obtain ⟨unlimited, limited, -, writes⟩ := admits_exactly (β := Char) (ε := Unit) sound made
    [(⟨0⟩, .requests, .request 1), (⟨0⟩, .data, .request 1)]
  refine ⟨sound, made, unlimited .connections rfl _, ?_, by decide +kernel, ?_⟩
  · obtain ⟨b, there, -, exactly⟩ := limited .requests half rfl
    have same : l'.bucket? .requests = some (requests.after [(⟨0⟩, .request 1)]) := rfl
    obtain rfl := Option.some.inj (same.symm.trans there)
    exact (exactly (by decide +kernel) (by decide +kernel) _).2 (.inl (.inl rfl))
  · obtain ⟨b, there, admitted⟩ := writes bytes rfl
    have same : l'.bucket? .data = some (data.after [(⟨0⟩, .request 1)]) := rfl
    obtain rfl := Option.some.inj (same.symm.trans there)
    exact (admitted [(⟨0⟩, .write ['a', 'b', 'c'] below)] (by decide +kernel) (by decide +kernel)
      ⟨0⟩ ['a', 'b', 'c'] below (by decide) (by decide)).2

/-- Half a connection passes every check, and nobody is let in, neither at once nor in an hour. -/
theorem half_a_connection_denied :
    let half : BucketSettings Float := ⟨⟨"1/s", 1⟩, 0.5, none, none, none, false⟩
    let s : Settings := {
      server := { listeners := [{ address := "127.0.0.1:80" }] }
      limits := { connections := some half } }
    let b : Bucket Nanos Float :=
      ⟨⟨0.5, 1, false, none, 0.5⟩, 0.5, ⟨0⟩, [], 0, false, .absent, false⟩
    let l : Limiter Nanos Float := { connections := some b }
    s.fault? = none ∧ Limiter.create s.limits ⟨0⟩ = .ok l ∧
      l.bucket? .connections = some b ∧ b.closed = false ∧ b.isFull = false ∧
      (l.enter .connections ⟨0⟩).1.admits = false ∧
      (l.enter .connections (.ofMillis 3600000)).1.admits = false :=
  ⟨by decide +kernel, rfl, rfl, rfl, rfl, by decide +kernel, by decide +kernel⟩

end Turnstile.Metering
