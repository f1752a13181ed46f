import Turnstile.Metering.FlowRate

namespace Turnstile.Metering

/-- What an operator writes down about a bucket, with defaults left open. -/
structure BucketSettings (α : Type) where
  flowRate : FlowRate α
  maxBurst : α
  /-- How many requests may wait; any number if none is given. -/
  maxQueue : Option Nat := none
  /-- The most that a waiting request is given at a time; the capacity if none is given. -/
  maxQueueGrant : Option α := none
  /-- What the bucket holds at first; the capacity if none is given. -/
  initialVolume : Option α := none
  partialGrants : Bool := false
deriving Repr

inductive BucketError (α : Type) where
  | invalidCapacity (capacity : α)
  | invalidFlowRate (rate : α)
  | invalidInitialVolume (volume capacity : α)
  | invalidGrantSize (size capacity : α)
deriving Repr

def BucketError.message : BucketError Float → String
  | invalidCapacity capacity =>
    "bucket capacity must be finite and greater than zero, got " ++ Decimal.text capacity
  | invalidFlowRate rate =>
    "flow rate must be finite and greater than zero, got " ++ Decimal.text rate ++ "/sec"
  | invalidInitialVolume volume capacity =>
    "initial volume " ++ Decimal.text volume ++ " must be between 0 and the capacity " ++
      Decimal.text capacity
  | invalidGrantSize size capacity =>
    "max queue grant size " ++ Decimal.text size ++
      " must be greater than zero and at most the capacity " ++ Decimal.text capacity

/-- What a running bucket never changes: everything decided, everything in range. -/
structure Terms (α : Type) where
  capacity : α
  rate : α
  partialGrants : Bool
  maxWaiters : Option Nat
  /-- The most that a waiting request is given at a time, if it is filled bit by bit. -/
  maxStep : α
deriving Repr

variable {α : Type} [Quantity α]

/-- The terms that settings ask for, and the volume to start with. -/
def BucketSettings.terms (s : BucketSettings α) : Except (BucketError α) (Terms α × α) :=
  let capacity := s.maxBurst
  let rate := s.flowRate.perSecond
  let volume := s.initialVolume.getD capacity
  let step := s.maxQueueGrant.getD capacity
  if !(Quantity.isFinite capacity && (0 : α) < capacity) then .error (.invalidCapacity capacity)
  else if !(Quantity.isFinite rate && (0 : α) < rate) then .error (.invalidFlowRate rate)
  else if !(Quantity.isFinite volume && (0 : α) ≤ volume && volume ≤ capacity) then
    .error (.invalidInitialVolume volume capacity)
  else if !(Quantity.isFinite step && (0 : α) < step && step ≤ capacity) then
    .error (.invalidGrantSize step capacity)
  else .ok (⟨capacity, rate, s.partialGrants, s.maxQueue, step⟩, volume)

end Turnstile.Metering
