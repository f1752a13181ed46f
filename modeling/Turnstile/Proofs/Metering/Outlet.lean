import Turnstile.Metering.Transfer
import Turnstile.Proofs.Metering.Asking

/-!
# A metered stream among others

An outlet is one metered stream and the bucket that pays for it. Others use the bucket too, and its
servicer makes its passes, at any times between the attempts to write (`Outlet.run`). The stream
keeps a ticket for the request that it has made. Nobody else can give that request up, so whatever
others do the ticket stands for as many bytes, in line or answered (`Ticket.IsFor.settle`).
-/

namespace Turnstile.Metering

open Quantity

inductive Ticket (τ α : Type) where
  | none
  | waiting (id : Nat)
  | answered (grant : Grant τ α)

namespace Ticket

variable {τ α : Type}

def status : Ticket τ α → GrantStatus
  | .answered grant => if grant.granted then .granted else .denied
  | .none | .waiting _ => .waiting

def number? : Ticket τ α → Option Nat
  | .waiting id => some id
  | .none | .answered _ => Option.none

def grants : Ticket τ α → List (Grant τ α)
  | .answered grant => [grant]
  | .none | .waiting _ => []

def settle (sent : List (Resolution τ α)) : Ticket τ α → Ticket τ α
  | .waiting id =>
    match sent.find? (·.id == id) with
    | some r => .answered r.grant
    | Option.none => .waiting id
  | .none => .none
  | .answered grant => .answered grant

end Ticket

/-- What a stream does with an offer. None accepts more than it is offered. -/
def Offer.bounded {ε : Type} (below : Nat → Offer ε) (most : Nat) : Offer ε :=
  match below most with
  | .accepted count => .accepted (min count most)
  | other => other

def Attempt.count {ε : Type} : Attempt ε → Nat
  | .wrote count => count
  | .pending | .failed _ | .denied => 0

/-- A metered stream, its bucket, and what became of its writes. -/
structure Outlet (τ α β : Type) where
  bucket : Bucket τ α
  meter : Meter := {}
  ticket : Ticket τ α := .none
  /-- Everything that the stream below has accepted, in order. -/
  written : List β := []
  /-- The answers to its requests that the stream has taken note of. -/
  received : List (Grant τ α) := []
  /-- The numbers that its requests have had in line. -/
  asked : List Nat := []

namespace Outlet

variable {τ α β ε : Type}

/-- A stream that has not been used, on a bucket. -/
def on (b : Bucket τ α) : Outlet τ α β := { bucket := b }

/-- The same stream, its bytes spelled otherwise. -/
def map {γ : Type} (spell : β → γ) (x : Outlet τ α β) : Outlet τ α γ :=
  ⟨x.bucket, x.meter, x.ticket, x.written.map spell, x.received, x.asked⟩

/-- The numbers of the requests in line that are the stream's own. -/
def own (x : Outlet τ α β) : List Nat := x.bucket.line.filter (x.asked.contains ·)

/-- Whether an action gives up the request of the stream, which only the stream itself can do. -/
def givenUp (x : Outlet τ α β) (a : Bucket.Action α) : Bool := x.ticket.number?.any a.givesUp

variable [Quantity α] [Clock τ α]

/-- The units that have been granted, in whole bytes. -/
def paid (grants : List (Grant τ α)) : Nat :=
  ((grants.filter (·.granted)).map fun g => whole g.amount).sum

/-- Somebody else, or the servicer, does something with the bucket. -/
def act (x : Outlet τ α β) (now : τ) (a : Bucket.Action α) : Outlet τ α β :=
  if x.givenUp a then x
  else
    let (bucket, report) := x.bucket.perform now a
    { x with bucket, ticket := x.ticket.settle report.sent }

def acts (x : Outlet τ α β) (steps : List (τ × Bucket.Action α)) : Outlet τ α β :=
  steps.foldl (fun x s => x.act s.1 s.2) x

/-- Makes a request for a grant, if a write of so many bytes needs one and none has been made. -/
def ask (x : Outlet τ α β) (now : τ) (length : Nat) : Outlet τ α β :=
  match x.ticket with
  | .waiting _ | .answered _ => x
  | .none =>
    if x.meter.needsGrant true length then
      let size := Meter.requestSize x.bucket.terms length
      let meter := { x.meter with outstanding := some size }
      match x.bucket.request (ofNat size) now with
      | (.settled grant, bucket) => { x with bucket, meter, ticket := .answered grant }
      | (.queued id, bucket) =>
        { x with bucket, meter, ticket := .waiting id, asked := x.asked ++ [id] }
    else x

def attempt (x : Outlet τ α β) (bytes : List β) (below : Nat → Offer ε) :
    Attempt ε × Outlet τ α β :=
  let (outcome, meter) := x.meter.write (some x.bucket.terms) bytes.length x.ticket.status
    (Offer.bounded below)
  let x := { x with meter, written := x.written ++ bytes.take outcome.count }
  match meter.outstanding with
  | none => (outcome, { x with ticket := .none, received := x.received ++ x.ticket.grants })
  | some _ => (outcome, x)

/-- One attempt to write. `below` is what the stream below does with an offer of so many bytes. -/
def write (x : Outlet τ α β) (now : τ) (bytes : List β) (below : Nat → Offer ε) :
    Attempt ε × Outlet τ α β :=
  (x.ask now bytes.length).attempt bytes below

inductive Event (α β ε : Type) where
  | act (a : Bucket.Action α)
  | write (bytes : List β) (below : Nat → Offer ε)

/-- The buffer of a write is so short that its length is a double. -/
def Event.Short : Event α β ε → Prop
  | .act _ => True
  | .write bytes _ => bytes.length < 2 ^ 53

def step (x : Outlet τ α β) (now : τ) : Event α β ε → Outlet τ α β
  | .act a => x.act now a
  | .write bytes below => (x.write now bytes below).2

def run (x : Outlet τ α β) (events : List (τ × Event α β ε)) : Outlet τ α β :=
  events.foldl (fun x e => x.step e.1 e.2) x

theorem run_acts (x : Outlet τ α β) (steps : List (τ × Bucket.Action α)) :
    x.run (steps.map fun s => (s.1, (.act s.2 : Event α β ε))) = x.acts steps :=
  List.foldl_map

end Outlet

/-! ### Attempts -/

theorem Meter.requestSize_le {α : Type} [Quantity α] (t : Terms α) (length : Nat) :
    requestSize t length ≤ length := by
  unfold requestSize
  split
  · exact Nat.le_refl _
  · exact Nat.min_le_left _ _

theorem Meter.requestSize_pos {α : Type} [Quantity α] (t : Terms α) {length : Nat}
    (pos : 0 < length) : 0 < requestSize t length := by
  unfold requestSize
  split
  · exact pos
  · omega

/-- What becomes of an attempt that offers so many bytes. -/
def Meter.answer {ε : Type} (below : Nat → Offer ε) (most : Nat) : Attempt ε :=
  relay (Offer.bounded below most)

theorem Meter.count_answer_le {ε : Type} (below : Nat → Offer ε) (most : Nat) :
    (answer below most).count ≤ most := by
  unfold answer Offer.bounded
  cases below most with
  | accepted count => exact Nat.min_le_right count most
  | pending | failed => exact Nat.zero_le most

theorem Meter.answer_ne_denied {ε : Type} (below : Nat → Offer ε) (most : Nat) :
    answer below most ≠ .denied := by
  unfold answer Offer.bounded
  cases below most <;> exact nofun

/-- The credit falls by what is written of an offer, if anything is. -/
theorem Meter.offer_bounded {ε : Type} (m : Meter) (length : Nat) (below : Nat → Offer ε) :
    m.offer length (Offer.bounded below) = (answer below (min m.credit length),
      { m with credit := m.credit - (answer below (min m.credit length)).count }) := by
  unfold offer answer Offer.bounded
  cases below (min m.credit length) <;> rfl

/-! ### Tickets -/

/-- A ticket stands for a request for so many bytes, or for the answer to one. -/
def Ticket.IsFor {τ α : Type} [Quantity α] (b : Bucket τ α) (size : Nat) : Ticket τ α → Prop
  | .none => False
  | .waiting id => b.Waits id ∧ b.Asks id (ofNat size)
  | .answered grant => grant.granted = true → grant.amount = ofNat size

namespace Ticket

variable {τ α : Type} {t : Ticket τ α} {id : Nat}

theorem settle_nil (t : Ticket τ α) : t.settle [] = t := by
  cases t <;> rfl

/-- A ticket waits on only if no outcome of its own has been sent. -/
theorem settle_eq_waiting_iff {sent : List (Resolution τ α)} :
    t.settle sent = .waiting id ↔ t = .waiting id ∧ id ∉ sent.map (·.id) := by
  cases t with
  | none => simp [settle]
  | answered => simp [settle]
  | waiting own =>
    unfold settle
    dsimp only
    cases found : sent.find? (·.id == own) with
    | none =>
      have unsent : own ∉ sent.map (·.id) := by simpa using found
      constructor
      · rintro ⟨⟩
        exact ⟨rfl, unsent⟩
      · rintro ⟨⟨⟩, -⟩
        rfl
    | some r =>
      have mem := List.mem_of_find?_eq_some found
      have same : r.id = own := by simpa using List.find?_some found
      refine ⟨nofun, ?_⟩
      rintro ⟨⟨⟩, unsent⟩
      exact absurd (List.mem_map.2 ⟨r, mem, same⟩) unsent

variable [Quantity α] [Clock τ α]

/-- Whatever others do, a ticket stays for as many bytes. -/
theorem IsFor.settle {b : Bucket τ α} {size : Nat} (isFor : t.IsFor b size)
    (numbered : b.Numbered) (now : τ) {a : Bucket.Action α}
    (kept : t.number?.any a.givesUp = false) :
    (t.settle (b.perform now a).2.sent).IsFor (b.perform now a).1 size := by
  cases t with
  | none => exact isFor
  | answered => exact isFor
  | waiting id =>
    obtain ⟨waits, asks⟩ := isFor
    obtain ⟨asks', granted⟩ := asks.perform (numbered.lt waits.mem_line) now a
    unfold Ticket.settle
    dsimp only
    cases found : (b.perform now a).2.sent.find? (·.id == id) with
    | none =>
      have unsent : id ∉ (b.perform now a).2.sent.map (·.id) := by simpa using found
      exact ⟨(waits.perform now kept).resolve_left unsent, asks'⟩
    | some r =>
      have same : r.id = id := by simpa using List.find?_some found
      exact granted r (List.mem_of_find?_eq_some found) same

end Ticket

/-! ### Asking -/

namespace Outlet

variable {τ α β : Type} [Quantity α] [Clock τ α]

inductive Asked (x : Outlet τ α β) (now : τ) (length : Nat) : Outlet τ α β → Prop where
  | spared (ready : x.ticket ≠ .none ∨ length = 0 ∨ 0 < x.meter.credit) : Asked x now length x
  | answered {size : Nat} {grant : Grant τ α} {bucket : Bucket τ α} (unasked : x.ticket = .none)
      (pos : 0 < size) (within : size ≤ length) (credit : x.meter.credit = 0)
      (told : x.bucket.request (ofNat size) now = (.settled grant, bucket)) :
      Asked x now length
        { x with bucket, meter := ⟨0, some size⟩, ticket := .answered grant }
  | queued {size id : Nat} {bucket : Bucket τ α} (unasked : x.ticket = .none)
      (pos : 0 < size) (within : size ≤ length) (credit : x.meter.credit = 0)
      (told : x.bucket.request (ofNat size) now = (.queued id, bucket)) :
      Asked x now length
        { x with bucket, meter := ⟨0, some size⟩, ticket := .waiting id, asked := x.asked ++ [id] }

theorem asked_ask (x : Outlet τ α β) (now : τ) (length : Nat) :
    Asked x now length (x.ask now length) := by
  unfold ask
  split
  · next waiting => exact .spared (.inl (by simp [waiting]))
  · next answered => exact .spared (.inl (by simp [answered]))
  · next unasked =>
    split
    · next needed =>
      obtain ⟨some, credit⟩ : length ≠ 0 ∧ x.meter.credit = 0 := by
        simpa [Meter.needsGrant] using needed
      have pos := Meter.requestSize_pos x.bucket.terms (Nat.pos_of_ne_zero some)
      have within := Meter.requestSize_le x.bucket.terms length
      dsimp only
      rw [credit]
      split
      · next told =>
        exact .answered unasked pos within credit told
      · next told =>
        exact .queued unasked pos within credit told
    · next spared =>
      refine .spared (.inr ?_)
      simp only [Meter.needsGrant, Bool.true_and, Bool.and_eq_true, bne_iff_ne, ne_eq, beq_iff_eq,
        not_and] at spared
      omega

end Outlet

end Turnstile.Metering
