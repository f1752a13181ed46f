import Turnstile.Metering.Terms

/-!
# Metered streams

Writes to a metered stream are paid for with units of a bucket, one for each byte. A write that has
no credit asks for a grant, waits for it, and then offers the stream below at most as many bytes as
it has credit for. What the stream below does not accept stays as credit for the next write. A write
may be given up while it waits: the request for the grant stays and serves a later write.

`Meter.write` is one attempt of a write. It never blocks; it is repeated when the grant or the
stream below may have changed.
-/

namespace Turnstile.Metering

/-- The paying side of a stream. -/
structure Meter where
  /-- Bytes that are paid for and not yet written. -/
  credit : Nat := 0
  /-- The size of a request for a grant that has been made and not been answered. -/
  outstanding : Option Nat := none
deriving DecidableEq, Repr

inductive GrantStatus where
  | waiting
  | granted
  | denied
deriving DecidableEq, Repr

inductive Offer (ε : Type) where
  | pending
  | accepted (count : Nat)
  | failed (error : ε)
deriving DecidableEq, Repr

inductive Attempt (ε : Type) where
  | pending
  /-- The first bytes were written, as many as this. -/
  | wrote (count : Nat)
  | failed (error : ε)
  | denied
deriving DecidableEq, Repr

namespace Meter

/-- The largest grant that a write may ask for: all its bytes if the bucket fills requests bit by
bit, otherwise no more than the bucket can hold, but at least one. -/
def requestSize {α : Type} [Quantity α] (t : Terms α) (length : Nat) : Nat :=
  if t.partialGrants then length else min length (max (Quantity.whole t.capacity) 1)

/-- Whether a write has to have a grant before it can offer anything. -/
def needsGrant (m : Meter) (metered : Bool) (length : Nat) : Bool :=
  metered && length != 0 && m.credit == 0

def relay {ε : Type} : Offer ε → Attempt ε
  | .pending => .pending
  | .accepted count => .wrote count
  | .failed e => .failed e

/-- Offers what there is credit for. -/
def offer {ε : Type} (m : Meter) (length : Nat) (inner : Nat → Offer ε) : Attempt ε × Meter :=
  match inner (min m.credit length) with
  | .accepted count => (.wrote count, { m with credit := m.credit - count })
  | other => (relay other, m)

/-- One attempt to write so many bytes. `terms` are those of the bucket, if there is one; `status`
is what becomes known of the outstanding grant, or of the one that this attempt asks for; `inner` is
what the stream below does with an offer of so many bytes. -/
def write {α ε : Type} [Quantity α] (m : Meter) (terms : Option (Terms α)) (length : Nat)
    (status : GrantStatus) (inner : Nat → Offer ε) : Attempt ε × Meter :=
  match terms with
  | none => (relay (inner length), m)
  | some t =>
    if length = 0 then (relay (inner 0), m)
    else if 0 < m.credit then m.offer length inner
    else
      let size := m.outstanding.getD (requestSize t length)
      match status with
      | .waiting => (.pending, { m with outstanding := some size })
      | .denied => (.denied, { m with outstanding := none })
      | .granted => offer ⟨m.credit + size, none⟩ length inner

end Meter

end Turnstile.Metering
