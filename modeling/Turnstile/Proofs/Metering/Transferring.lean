import Turnstile.Proofs.Metering.Gates
import Turnstile.Proofs.Metering.Writing

/-!
# A transfer is a metered stream

A transfer keeps its bucket on a timeline and its bytes in a sink. Each of its attempts to write is
one of a metered stream (`Mirrors.attempt`), and while it waits others act on the bucket
(`Mirrors.await`). So all that it writes is one delivery (`Mirrors.writeAll`), and what it tells its
caller is what became of the stream (`Mirrors.truthful`): no byte is written that was not paid for
(`Outlet.bytes_paid`).
-/

namespace Turnstile.Metering

open Quantity

def Ticket.pending {τ α : Type} : Ticket τ α → Pending
  | .none => .none
  | .waiting id => .waiting id
  | .answered grant => .settled grant.granted

/-- A meter that waits for what it needs goes on as one that is about to ask for it. -/
theorem Meter.write_asked {ε : Type} (t : Terms Float) {length : Nat} (filled : length ≠ 0)
    (status : GrantStatus) (below : Nat → Offer ε) :
    (⟨0, some (requestSize t length)⟩ : Meter).write (some t) length status below =
      (⟨0, none⟩ : Meter).write (some t) length status below := by
  unfold write
  simp only [if_neg filled]
  cases status <;> rfl

/-- No attempt fails by itself. -/
theorem Meter.write_failed {α ε : Type} [Quantity α] {m : Meter} {terms : Option (Terms α)}
    {length : Nat} {status : GrantStatus} {below : Nat → Offer ε} {e : ε}
    (failed : (m.write terms length status below).1 = .failed e) :
    ∃ most, below most = .failed e := by
  have relayed {most : Nat} (h : relay (below most) = .failed e) : below most = .failed e := by
    cases offered : below most with
    | failed e' =>
      rw [offered] at h
      cases h
      rfl
    | pending | accepted =>
      rw [offered] at h
      cases h
  have offers {m : Meter} (h : (m.offer length below).1 = .failed e) :
      ∃ most, below most = .failed e := by
    unfold offer at h
    split at h
    · cases h
    · exact ⟨_, relayed h⟩
  unfold write at failed
  dsimp only at failed
  split at failed
  · exact ⟨_, relayed failed⟩
  · split at failed
    · exact ⟨_, relayed failed⟩
    · split at failed
      · exact offers failed
      · split at failed
        · cases failed
        · cases failed
        · exact offers failed

namespace Transfer

/-- A transfer stands where a metered stream stands, up to what its meter waits for. -/
structure Follows (y : Transfer) (x : Outlet Nanos Float Char) : Prop where
  bucket : y.timeline.limiter.bucket? .data = some x.bucket
  pending : y.pending = x.ticket.pending
  written : y.sink.written = x.written.reverse
  ended : y.timeline.ended = []

/-- A transfer stands where a metered stream stands. -/
structure Mirrors (y : Transfer) (x : Outlet Nanos Float Char) : Prop extends Follows y x where
  meter : y.meter = x.meter

variable {y : Transfer} {x : Outlet Nanos Float Char}

theorem Follows.terms? (follows : y.Follows x) : y.terms? = some x.bucket.terms := by
  rw [Transfer.terms?, follows.bucket]
  rfl

theorem Follows.status (follows : y.Follows x) : y.status = x.ticket.status := by
  rw [Transfer.status, follows.pending]
  cases x.ticket with
  | none | waiting => rfl
  | answered grant => cases h : grant.granted <;> simp [Ticket.pending, Ticket.status, h]

/-- The sink never accepts more than it is offered. -/
theorem bounded_answer (sink : Sink) : Offer.bounded sink.answer = sink.answer := by
  funext most
  unfold Offer.bounded Sink.answer
  cases sink.broken with
  | true => rfl
  | false =>
    cases sink.maxWrite with
    | none => exact congrArg Offer.accepted (Nat.min_self most)
    | some limit =>
      refine congrArg Offer.accepted (Nat.min_eq_left ?_)
      exact Nat.min_le_left most limit

section

variable (follows : y.Follows x)
include follows

theorem Follows.request {amount : Float} {reply : Reply Nanos Float} {b : Bucket Nanos Float}
    (told : x.bucket.request amount y.timeline.instant = (reply, b)) :
    y.timeline.request .data amount =
      (reply, { y.timeline with limiter := y.timeline.limiter.setBucket .data b }) := by
  unfold Timeline.request Limiter.request
  rw [follows.bucket]
  dsimp only
  rw [told]

end

structure Asks (y : Transfer) (x : Outlet Nanos Float Char) (length : Nat) (y' : Transfer)
    (x' : Outlet Nanos Float Char) : Prop extends Follows y' x' where
  sink : y'.sink = y.sink
  offers : ∀ (status : GrantStatus) (below : Nat → Offer StreamError),
    y'.meter.write (some x'.bucket.terms) length status below =
      x'.meter.write (some x'.bucket.terms) length status below

theorem Mirrors.ask (mirrors : y.Mirrors x) (balanced : x.Balanced) (length : Nat) :
    Asks y x length (y.ask length) (x.ask y.timeline.instant length) := by
  have follows := mirrors.toFollows
  have pending := follows.pending
  have still : Asks y x length y x := ⟨follows, rfl, fun _ _ => by rw [mirrors.meter]⟩
  cases ticket : x.ticket with
  | waiting | answered =>
    rw [ticket] at pending
    have same : y.ask length = y := by
      unfold Transfer.ask
      rw [follows.terms?, pending]
      rfl
    have same' : x.ask y.timeline.instant length = x := by
      unfold Outlet.ask
      rw [ticket]
    rwa [same, same']
  | none =>
    rw [ticket] at pending
    cases needed : x.meter.needsGrant true length with
    | false =>
      have same : y.ask length = y := by
        unfold Transfer.ask
        rw [follows.terms?, pending, mirrors.meter, needed]
        rfl
      have same' : x.ask y.timeline.instant length = x := by
        unfold Outlet.ask
        rw [ticket, needed]
        rfl
      rwa [same, same']
    | true =>
      obtain ⟨filled, credit⟩ : length ≠ 0 ∧ x.meter.credit = 0 := by
        simpa [Meter.needsGrant] using needed
      have meter : x.meter = ⟨0, none⟩ := by rw [← credit, ← balanced.unasked ticket]
      let size := Meter.requestSize x.bucket.terms length
      cases told : x.bucket.request (Quantity.ofNat size) y.timeline.instant with
      | mk reply b =>
        have told' : y.timeline.request .data (Float.ofNat size) = _ := follows.request told
        have offers (status : GrantStatus) (below : Nat → Offer StreamError) :
            (⟨0, none⟩ : Meter).write (some b.terms) length status below =
              (⟨0, some size⟩ : Meter).write (some b.terms) length status below := by
          rw [← Meter.write_asked b.terms filled, Bucket.request_terms told]
        unfold Transfer.ask Outlet.ask
        rw [follows.terms?, pending, ticket, mirrors.meter, needed, meter]
        dsimp only [Ticket.pending]
        rw [if_pos rfl, if_pos rfl, told', told]
        cases reply with
        | settled | queued => exact ⟨⟨rfl, rfl, follows.written, follows.ended⟩, rfl, offers⟩

theorem written_of_attempt (sink : Sink) (now : Nat) (bytes : List Char)
    (outcome : Attempt StreamError) :
    (match outcome with
      | .wrote count => sink.accept now (bytes.take count)
      | _ => sink).written = (bytes.take outcome.count).reverse ++ sink.written := by
  cases outcome <;> rfl

/-- One attempt of a transfer is one of the stream that it mirrors. -/
theorem Mirrors.attempt (mirrors : y.Mirrors x) (balanced : x.Balanced) (bytes : List Char) :
    (y.attempt bytes).1 = (x.write y.timeline.instant bytes y.sink.answer).1 ∧
      (y.attempt bytes).2.Mirrors (x.write y.timeline.instant bytes y.sink.answer).2 := by
  have asks := mirrors.ask balanced bytes.length
  unfold Transfer.attempt Outlet.write Outlet.attempt
  dsimp only
  generalize y.ask bytes.length = y' at asks ⊢
  generalize x.ask y.timeline.instant bytes.length = x' at asks ⊢
  rw [asks.terms?, asks.toFollows.status, asks.sink, bounded_answer, asks.offers]
  generalize x'.meter.write (some x'.bucket.terms) bytes.length x'.ticket.status y.sink.answer =
    wrote
  obtain ⟨outcome, meter⟩ := wrote
  have written : (match outcome with
      | .wrote count => y.sink.accept y'.now (bytes.take count)
      | _ => y.sink).written = (x'.written ++ bytes.take outcome.count).reverse := by
    rw [written_of_attempt, List.reverse_append, ← asks.written, asks.sink]
  cases outstanding : meter.outstanding with
  | none => exact ⟨rfl, ⟨asks.bucket, rfl, written, asks.ended⟩, rfl⟩
  | some size => exact ⟨rfl, ⟨asks.bucket, asks.pending, written, asks.ended⟩, rfl⟩

/-! ### Time passes -/

def sentData (ended : List Outcome) : List (Resolution Nanos Float) :=
  (ended.filter (·.gate == .data)).map (·.resolution)

theorem find?_sentData (ended : List Outcome) (id : Nat) :
    (sentData ended).find? (·.id == id) =
      (ended.find? fun o => o.gate == .data && o.resolution.id == id).map (·.resolution) := by
  rw [sentData, List.find?_map, List.find?_filter]
  simp only [Function.comp_def, Bool.decide_and, Bool.decide_eq_true]

/-- Others act on the bucket of a stream while it waits. -/
theorem Mirrors.conclude (mirrors : y.Mirrors x) {z : Transfer} {b : Bucket Nanos Float}
    (bucket : z.timeline.limiter.bucket? .data = some b) (pending : z.pending = y.pending)
    (sink : z.sink = y.sink) (meter : z.meter = y.meter) :
    z.conclude.Mirrors
      { x with bucket := b, ticket := x.ticket.settle (sentData z.timeline.ended) } where
  bucket := bucket
  pending := by
    unfold Transfer.conclude
    dsimp only
    rw [pending, mirrors.pending]
    cases x.ticket with
    | none | answered => rfl
    | waiting id =>
      unfold Ticket.settle
      dsimp only [Ticket.pending]
      rw [find?_sentData]
      cases z.timeline.ended.find? fun o => o.gate == .data && o.resolution.id == id <;> rfl
  written := (congrArg Sink.written sink).trans mirrors.written
  ended := rfl
  meter := meter.trans mirrors.meter

theorem denyAll_data {l : Limiter Nanos Float} {b : Bucket Nanos Float}
    (data : l.bucket? .data = some b) (now : Nanos) :
    (l.denyAll now).1.bucket? .data = some (b.denyAll now).1 ∧
      ((l.denyAll now).2.filter (·.1 == .data)).map (·.2) = (b.denyAll now).2 := by
  obtain ⟨connections, requests, data'⟩ := l
  obtain rfl : data' = some b := data
  have other : (Gate.connections == Gate.data) = false := rfl
  have another : (Gate.requests == Gate.data) = false := rfl
  cases connections <;> cases requests <;>
    simp [Limiter.denyAll, Gate.all, Limiter.denyGate, Limiter.bucket?, Limiter.setBucket,
      List.filter_map, Function.comp_def, other, another]

section

variable {t : Timeline} {b : Bucket Nanos Float} (data : t.limiter.bucket? .data = some b)
include data

theorem pass_data :
    (t.pass .data).limiter.bucket? .data = some (b.pass t.instant).1 ∧
      sentData (t.pass .data).ended = sentData t.ended ++ (b.pass t.instant).2 := by
  unfold Timeline.pass Limiter.pass
  rw [data]
  refine ⟨rfl, ?_⟩
  simp [sentData, List.filter_map, Function.comp_def]

theorem pass_not_data {gate : Gate} (other : gate ≠ .data) :
    (t.pass gate).limiter.bucket? .data = some b ∧
      sentData (t.pass gate).ended = sentData t.ended := by
  have otherwise : (gate == Gate.data) = false := by simpa using other
  unfold Timeline.pass Limiter.pass
  cases t.limiter.bucket? gate with
  | none => exact ⟨data, by simp [sentData]⟩
  | some c =>
    refine ⟨?_, by simp [sentData, List.filter_map, Function.comp_def, otherwise]⟩
    cases gate with
    | connections | requests => exact data
    | data => exact absurd rfl other

end

theorem act_of_kept {a : Bucket.Action Float} (kept : ∀ id, a.givesUp id = false) (now : Nanos) :
    x.act now a = { x with
      bucket := (x.bucket.perform now a).1
      ticket := x.ticket.settle (x.bucket.perform now a).2.sent } := by
  have unmoved : x.givenUp a = false := by
    unfold Outlet.givenUp
    cases x.ticket.number? with
    | none => rfl
    | some id => exact kept id
  unfold Outlet.act
  rw [unmoved]
  rfl

section

variable (mirrors : y.Mirrors x) (time : Nat)
include mirrors

theorem Mirrors.denial : (y.happen .denial time).Mirrors (x.act (.ofMillis time) .denyAll) := by
  let z : Transfer :=
    { y with timeline := ({ y.timeline with now := time } : Timeline).denyAll, denyAt := none }
  obtain ⟨shut, sent⟩ := denyAll_data mirrors.bucket (.ofMillis time)
  have told : sentData z.timeline.ended = (x.bucket.denyAll (.ofMillis time)).2 := by
    rw [← sent]
    change sentData (y.timeline.ended ++ _) = _
    rw [mirrors.ended, List.nil_append, sentData, List.filter_map, List.map_map]
    rfl
  have concluded := mirrors.conclude (z := z) shut rfl rfl rfl
  rw [told] at concluded
  rw [act_of_kept fun _ => rfl]
  exact concluded

/-- A pass at the gate for data. -/
theorem Mirrors.pass :
    (y.happen (.pass .data) time).Mirrors (x.act (.ofMillis time) .pass) := by
  let z : Transfer :=
    { y with timeline := ({ y.timeline with now := time } : Timeline).pass .data }
  obtain ⟨bucket, told⟩ := pass_data (t := { y.timeline with now := time }) mirrors.bucket
  have concluded := mirrors.conclude (z := z) bucket rfl rfl rfl
  have sent : sentData z.timeline.ended = (x.bucket.pass (.ofMillis time)).2 := by
    refine told.trans ?_
    rw [mirrors.ended]
    rfl
  rw [sent] at concluded
  rw [act_of_kept fun _ => rfl]
  exact concluded

/-- A pass at another gate. -/
theorem Mirrors.pass_other {gate : Gate} (other : gate ≠ .data) :
    (y.happen (.pass gate) time).Mirrors x := by
  let z : Transfer :=
    { y with timeline := ({ y.timeline with now := time } : Timeline).pass gate }
  obtain ⟨bucket, told⟩ := pass_not_data (t := { y.timeline with now := time }) mirrors.bucket other
  have concluded := mirrors.conclude (z := z) bucket rfl rfl rfl
  have sent : sentData z.timeline.ended = [] := by
    refine told.trans ?_
    rw [mirrors.ended]
    rfl
  rw [sent, Ticket.settle_nil] at concluded
  exact concluded

/-- What happens by itself is done by others. -/
theorem Mirrors.happen (what : Happening) :
    ∃ steps, (y.happen what time).Mirrors (x.acts steps) := by
  cases what with
  | denial => exact ⟨[(.ofMillis time, .denyAll)], mirrors.denial time⟩
  | pass gate =>
    by_cases data : gate = .data
    · rw [data]
      exact ⟨[(.ofMillis time, .pass)], mirrors.pass time⟩
    · exact ⟨[], mirrors.pass_other time data⟩

end

theorem Mirrors.setNow (mirrors : y.Mirrors x) (time : Nat) :
    Mirrors { y with timeline := { y.timeline with now := time } } x :=
  ⟨⟨mirrors.bucket, mirrors.pending, mirrors.written, mirrors.ended⟩, mirrors.meter⟩

/-- While an operation waits, others act. -/
theorem Mirrors.await (mirrors : y.Mirrors x) (deadline : Option Nat) (fuel : Nat) :
    ∃ steps, (y.await deadline fuel).Mirrors (x.acts steps) := by
  induction fuel generalizing y x with
  | zero => exact ⟨[], mirrors⟩
  | succ fuel ih =>
    -- something happens, and the wait goes on
    have goesOn (what : Happening) (time : Nat) :
        ∃ steps, ((y.happen what time).await deadline fuel).Mirrors (x.acts steps) := by
      obtain ⟨first, mirrors⟩ := mirrors.happen time what
      obtain ⟨later, mirrors⟩ := ih mirrors
      refine ⟨first ++ later, ?_⟩
      rwa [Outlet.acts, List.foldl_append]
    unfold Transfer.await
    split
    · exact ⟨[], mirrors⟩
    · split
      · exact ⟨[], mirrors⟩
      · exact ⟨[], mirrors.setNow _⟩
      · exact goesOn _ _
      · split
        · exact goesOn _ _
        · exact ⟨[], mirrors.setNow _⟩

/-! ### Writes -/

def Written.rest (bytes : List Char) : Written → List Char
  | .wrote count => bytes.drop count
  | .failed _ | .timedOut => bytes

/-- A transfer has come to stand where a stream stands that delivers bytes. -/
def Delivers (x : Outlet Nanos Float Char) (bytes rest : List Char) (z : Transfer) : Prop :=
  ∃ turns : List (Nanos × Outlet.Turn Float StreamError), ∃ x' : Outlet Nanos Float Char,
    x.deliver bytes turns = (rest, x') ∧ z.Mirrors x' ∧ x'.Balanced

variable {bytes rest rest' : List Char} {x' : Outlet Nanos Float Char} {z : Transfer}

theorem Delivers.after {turns : List (Nanos × Outlet.Turn Float StreamError)}
    (delivered : x.deliver bytes turns = (rest, x')) (more : Delivers x' rest rest' z) :
    Delivers x bytes rest' z := by
  obtain ⟨later, x'', delivered', mirrors, balanced⟩ := more
  refine ⟨turns ++ later, x'', ?_, mirrors, balanced⟩
  rw [Outlet.deliver_append, delivered]
  exact delivered'

/-- Nothing is delivered while an operation waits. -/
theorem Mirrors.awaits (mirrors : y.Mirrors x) (balanced : x.Balanced) (bytes : List Char)
    (deadline : Option Nat) (fuel : Nat) : Delivers x bytes bytes (y.await deadline fuel) := by
  obtain ⟨steps, mirrors⟩ := mirrors.await deadline fuel
  exact ⟨_, x.acts steps, x.deliver_acts bytes steps, mirrors, balanced.acts steps⟩

section

variable (short : bytes.length < 2 ^ 53)
include short

/-- One attempt is one turn of a delivery. -/
theorem Mirrors.turn (mirrors : y.Mirrors x) (balanced : x.Balanced) :
    Delivers x bytes (bytes.drop (y.attempt bytes).1.count) (y.attempt bytes).2 := by
  obtain ⟨same, mirrors⟩ := mirrors.attempt balanced bytes
  refine ⟨[(y.timeline.instant, .write bytes.length y.sink.answer)], _, ?_, mirrors, ?_⟩
  · rw [Outlet.deliver, List.take_length, same]
    rfl
  · exact balanced.step Quantity.countsBytes_float y.timeline.instant
      (e := .write bytes y.sink.answer) short

/-- A write of a transfer is some turns of a delivery. -/
theorem Mirrors.write (mirrors : y.Mirrors x) (balanced : x.Balanced) (deadline : Option Nat) :
    Delivers x bytes ((y.write bytes deadline).1.rest bytes) (y.write bytes deadline).2 := by
  have first := mirrors.turn short balanced
  unfold Transfer.write
  generalize y.attempt bytes = attempted at first ⊢
  obtain ⟨outcome, z⟩ := attempted
  cases outcome with
  | wrote | failed | denied => exact first
  | pending =>
    obtain ⟨turns, x', asked, mirrors, balanced⟩ := first
    have still := mirrors.awaits balanced bytes deadline happeningLimit
    dsimp only
    split
    · obtain ⟨waits, x'', waited, mirrors, balanced⟩ := still
      have second := Delivers.after waited (mirrors.turn short balanced)
      generalize (z.await deadline happeningLimit).attempt bytes = attempted at second ⊢
      obtain ⟨outcome, z'⟩ := attempted
      cases outcome <;> exact .after asked second
    · exact .after asked still

end

/-- All that a transfer writes is one delivery. -/
theorem Mirrors.writeAll (mirrors : y.Mirrors x) (balanced : x.Balanced)
    (short : bytes.length < 2 ^ 53) (fuel : Nat) :
    ∃ rest, Delivers x bytes rest (y.writeAll bytes fuel).2 := by
  induction fuel generalizing y x bytes with
  | zero => exact ⟨bytes, [], x, rfl, mirrors, balanced⟩
  | succ fuel ih =>
    unfold Transfer.writeAll
    split
    · exact ⟨bytes, [], x, rfl, mirrors, balanced⟩
    · have first := mirrors.write short balanced none
      generalize y.write bytes none = o at first ⊢
      obtain ⟨written, z⟩ := o
      cases written with
      | failed | timedOut => exact ⟨bytes, first⟩
      | wrote count =>
        obtain ⟨turns, x', delivered, mirrors, balanced⟩ := first
        have shorter : (bytes.drop count).length < 2 ^ 53 := by
          rw [List.length_drop]
          omega
        obtain ⟨rest, more⟩ := ih mirrors balanced shorter
        exact ⟨rest, .after delivered more⟩

/-! ### The start -/

/-- A transfer that has just been set up mirrors a stream that has not been used, but for the gates
that may be shut at the very start. -/
theorem mirrors_create {settings : LimitSettings Float} {sink : Sink} {unread : List Char}
    {denyAt : Option Nat} (created : create settings sink unread denyAt = .ok y)
    {s : BucketSettings Float} (data : settings.data = some s) (unused : sink.written = []) :
    ∃ b steps, Bucket.create s (.ofMillis 0) = .ok b ∧ y.Mirrors ((Outlet.on b).acts steps) := by
  unfold create Timeline.create at created
  cases limiter : Limiter.create settings (Nanos.ofMillis 0) with
  | error e =>
    rw [limiter] at created
    cases created
  | ok l =>
    have asked : settings.bucket? .data = some s := data
    obtain ⟨b, made, bucket⟩ := Limiter.bucket?_of_some limiter asked
    have mirrors (denyAt : Option Nat) :
        Mirrors { timeline := { now := 0, limiter := l }, sink, unread, denyAt } (Outlet.on b) :=
      ⟨⟨bucket, rfl, unused, rfl⟩, rfl⟩
    rw [limiter] at created
    dsimp only at created
    split at created
    · cases created
      exact ⟨b, [(.ofMillis 0, .denyAll)], made, (mirrors none).denial 0⟩
    · cases created
      exact ⟨b, [], made, mirrors denyAt⟩

/-! ### What a caller is told -/

def Written.ofAttempt : Attempt StreamError → Written
  | .wrote count => .wrote count
  | .failed e => .failed e
  | .denied => .failed .grantDenied
  | .pending => .timedOut

theorem attempt_failed {e : StreamError} (failed : (y.attempt bytes).1 = .failed e) :
    e = .sinkFailed := by
  unfold attempt at failed
  obtain ⟨most, answer⟩ := Meter.write_failed failed
  unfold Sink.answer at answer
  split at answer <;> cases answer
  rfl

/-- A write comes to what its last attempt comes to, or it has waited in vain. -/
theorem Mirrors.last_attempt (mirrors : y.Mirrors x) (balanced : x.Balanced)
    (short : bytes.length < 2 ^ 53) (deadline : Option Nat) :
    (y.write bytes deadline).1 = .timedOut ∨ ∃ (z : Transfer) (x' : Outlet Nanos Float Char),
      z.Mirrors x' ∧ x'.Balanced ∧
        y.write bytes deadline = (.ofAttempt (z.attempt bytes).1, (z.attempt bytes).2) := by
  by_cases waits : (y.attempt bytes).1 = .pending
  · have balanced' := balanced.step Quantity.countsBytes_float y.timeline.instant
      (e := .write bytes y.sink.answer) short
    obtain ⟨steps, waited⟩ := (mirrors.attempt balanced bytes).2.await deadline happeningLimit
    unfold Transfer.write
    generalize y.attempt bytes = attempted at waits waited ⊢
    obtain ⟨outcome, z⟩ := attempted
    obtain rfl : outcome = .pending := waits
    dsimp only at waited ⊢
    split
    · refine .inr ⟨_, _, waited, balanced'.acts steps, ?_⟩
      generalize (z.await deadline happeningLimit).attempt bytes = again
      obtain ⟨outcome, z'⟩ := again
      cases outcome <;> rfl
    · exact .inl rfl
  · refine .inr ⟨y, x, mirrors, balanced, ?_⟩
    unfold Transfer.write
    generalize y.attempt bytes = attempted at waits ⊢
    obtain ⟨outcome, z⟩ := attempted
    cases outcome with
    | pending => exact absurd rfl waits
    | wrote | failed | denied => rfl

/-- What the caller of a transfer is told, and what becomes of its text, is as the stream has it. -/
structure Truthful (y : Transfer) (x : Outlet Nanos Float Char) : Prop where
  denied {text : List Char} (deadline : Option Nat) :
    (x.write y.timeline.instant text y.sink.answer).1 = .denied →
      ∃ e, (y.write text deadline).1 = .failed e ∧ e.kind = "ConnectionAborted"
  /-- A write that is aborted leaves neither credit nor a request. -/
  aborted {text : List Char} {deadline : Option Nat} {e : StreamError} : text.length < 2 ^ 53 →
    (y.write text deadline).1 = .failed e → e.kind = "ConnectionAborted" →
      (y.write text deadline).2.meter = {} ∧ (y.write text deadline).2.pending = .none
  /-- The sink gets the front of a text, and all of that is paid for. -/
  delivered {text : List Char} (fuel : Nat) : text.length < 2 ^ 53 →
    ∃ x' front, (y.writeAll text fuel).2.Mirrors x' ∧ x'.Balanced ∧ front <+: text ∧
      x'.written = x.written ++ front

theorem Mirrors.truthful (mirrors : y.Mirrors x) (balanced : x.Balanced) : y.Truthful x where
  denied {text} deadline denied := by
    rw [← (mirrors.attempt balanced text).1] at denied
    refine ⟨.grantDenied, ?_, rfl⟩
    unfold Transfer.write
    generalize y.attempt text = attempted at denied ⊢
    obtain ⟨outcome, z⟩ := attempted
    obtain rfl : outcome = .denied := denied
    rfl
  aborted {text deadline e} short failed kind := by
    obtain rfl : e = .grantDenied := by
      cases e with
      | sinkFailed => simp [StreamError.kind] at kind
      | grantDenied => rfl
    obtain waited | ⟨z, x', mirrors, balanced, last⟩ := mirrors.last_attempt balanced short deadline
    · rw [waited] at failed
      cases failed
    · obtain ⟨same, mirrors'⟩ := mirrors.attempt balanced text
      have lawful :=
        balanced.lawful Quantity.countsBytes_float z.timeline.instant short z.sink.answer
      rw [last] at failed ⊢
      have denied : (z.attempt text).1 = .denied := by
        cases outcome : (z.attempt text).1 with
        | denied => rfl
        | failed e' =>
          rw [outcome, attempt_failed outcome] at failed
          cases failed
        | pending | wrote =>
          rw [outcome] at failed
          cases failed
      obtain ⟨meter, ticket, -⟩ := lawful.denied (same.symm.trans denied)
      exact ⟨mirrors'.meter.trans meter, by rw [mirrors'.pending, ticket]; rfl⟩
  delivered {text} fuel short := by
    obtain ⟨rest, turns, x', delivered, mirrors, balanced⟩ := mirrors.writeAll balanced short fuel
    obtain ⟨front, parts, written⟩ := x.deliver_spec text turns
    rw [delivered] at parts written
    exact ⟨x', front, mirrors, balanced, ⟨rest, parts.symm⟩, written⟩

end Transfer

namespace Outlet

variable {β ε : Type}

/-- Over every run, whatever others do with the bucket and the stream below answers: what is written
and the credit add up to what was granted, the stream has one request in line or none, and every
further attempt is lawful. So data is delivered from the front. A new transfer mirrors such a
stream, and one that mirrors it tells its caller the truth about it. -/
theorem bytes_paid {settings : BucketSettings Float} {start : Nanos} {b : Bucket Nanos Float}
    (created : Bucket.create settings start = .ok b) {events : List (Nanos × Event Float β ε)}
    (short : ∀ e ∈ events, e.2.Short) :
    let x := (Outlet.on b).run events
    x.written.length + x.meter.credit = paid x.received ∧
    x.own = x.ticket.number?.toList ∧
    (∀ id, x.ticket = .waiting id → x.bucket.Waits id) ∧
    (∀ (now : Nanos) (bytes : List β) (below : Nat → Offer ε), bytes.length < 2 ^ 53 →
      Lawful x bytes below (x.write now bytes below)) ∧
    (∀ (data : List β) (turns : List (Nanos × Turn Float ε)), ∃ front,
      data = front ++ (x.deliver data turns).1 ∧
      (x.deliver data turns).2.written = x.written ++ front) ∧
    (∀ (limits : LimitSettings Float) (sink : Sink) (unread : List Char) (denyAt : Option Nat)
      (y : Transfer), Transfer.create limits sink unread denyAt = .ok y →
        limits.data = some settings → start = .ofMillis 0 → sink.written = [] →
          ∃ others : List (Nanos × Event Float Char StreamError),
            (∀ e ∈ others, e.2.Short) ∧ y.Mirrors ((Outlet.on b).run others)) ∧
    ∀ (spell : β → Char) (y : Transfer), y.Mirrors (x.map spell) → y.Truthful (x.map spell) := by
  intro x
  have numbered := (Bucket.fresh_create created).numbered
  have balanced : x.Balanced := (balanced_on numbered).run countsBytes_float short
  refine ⟨balanced.balance, balanced.own_eq, fun _ => balanced.waits, ?_, ?_, ?_, ?_⟩
  · intro now bytes below small
    exact balanced.lawful countsBytes_float now small below
  · exact fun data turns => x.deliver_spec data turns
  · intro limits sink unread denyAt y set data zero unused
    obtain ⟨b', steps, created', mirrors⟩ := Transfer.mirrors_create set data unused
    rw [zero, created'] at created
    cases created
    refine ⟨_, ?_, (Outlet.run_acts (Outlet.on b) steps).symm ▸ mirrors⟩
    intro e mem
    obtain ⟨s, -, rfl⟩ := List.mem_map.1 mem
    trivial
  · exact fun spell y mirrors => mirrors.truthful (balanced.map spell)

/-- Three of four bytes that are granted are accepted, and an error leaves the fourth for the next
write. Then a request waits, also when the line is served too early, and the grant for two bytes
serves a write of another one. -/
theorem bytes_paid_after_failure :
    let b : Bucket Nanos Float := ⟨⟨4, 1, false, none, 4⟩, 4, ⟨0⟩, [], 0, false, .absent, false⟩
    let second : Nanos := ⟨1000000000⟩
    let events : List (Nanos × Event Float Char StreamError) :=
      [(⟨0⟩, .write ['a', 'b', 'c', 'd', 'e'] fun _ => .accepted 3),
        (⟨0⟩, .write ['d', 'e'] fun _ => .failed .sinkFailed), (⟨0⟩, .write ['d', 'e'] .accepted),
        (⟨0⟩, .write ['e', 'f'] .accepted), (second, .act .pass), (⟨2000000000⟩, .act .pass),
        (⟨2000000000⟩, .write ['x'] .accepted)]
    let waiting := (Outlet.on b).run (events.take 4)
    let x := (Outlet.on b).run events
    Bucket.create ⟨⟨"1/s", 1⟩, 4, none, none, none, false⟩ ⟨0⟩ = .ok b ∧
      waiting.own = [0] ∧ waiting.written = ['a', 'b', 'c', 'd'] ∧
      x.own = [] ∧ x.written = ['a', 'b', 'c', 'd', 'x'] ∧ x.meter = ⟨1, none⟩ ∧
      paid x.received = 6 ∧
      let below := fun _ => (.pending : Offer StreamError)
      Lawful x ['e'] below (x.write second ['e'] below) := by
  intro b second events waiting
  have created : Bucket.create ⟨⟨"1/s", 1⟩, 4, none, none, none, false⟩ ⟨0⟩ = .ok b := rfl
  have short : ∀ e ∈ events, e.2.Short := by
    intro e mem
    simp only [events, List.mem_cons, List.not_mem_nil, or_false] at mem
    rcases mem with rfl | rfl | rfl | rfl | rfl | rfl | rfl <;> simp [Event.Short]
  have own : ((Outlet.on b).run events).own = [] := by decide +kernel
  have written : ((Outlet.on b).run events).written = ['a', 'b', 'c', 'd', 'x'] := by
    decide +kernel
  have meter : ((Outlet.on b).run events).meter = ⟨1, none⟩ := by decide +kernel
  have paid := bytes_paid created short
  refine ⟨created, by decide +kernel, by decide +kernel, ?_⟩
  generalize (Outlet.on b).run events = x at own written meter paid ⊢
  obtain ⟨balance, -, -, lawful, -⟩ := paid
  refine ⟨own, written, meter, ?_, lawful second ['e'] _ (by decide)⟩
  rw [← balance, written, meter]
  rfl

end Outlet

end Turnstile.Metering
