import Turnstile.Metering.Bucket

namespace Turnstile.Metering

inductive Gate where
  | connections
  | requests
  | data
deriving DecidableEq, Repr

namespace Gate

def name : Gate → String
  | connections => "connections"
  | requests => "requests"
  | data => "data"

/-- All gates, in the order in which they are set up, shut and reported. -/
def all : List Gate := [connections, requests, data]

end Gate

structure LimitSettings (α : Type) where
  connections : Option (BucketSettings α) := none
  requests : Option (BucketSettings α) := none
  data : Option (BucketSettings α) := none
deriving Repr

/-- The settings for one gate. -/
def LimitSettings.bucket? {α : Type} (s : LimitSettings α) : Gate → Option (BucketSettings α)
  | .connections => s.connections
  | .requests => s.requests
  | .data => s.data

/-- Up to three buckets: one unit per connection, one unit per request, and one unit per outbound
byte. A gate without a bucket lets everything through. -/
structure Limiter (τ α : Type) where
  connections : Option (Bucket τ α) := none
  requests : Option (Bucket τ α) := none
  data : Option (Bucket τ α) := none
deriving Repr

namespace Limiter

variable {τ α : Type} [Quantity α] [Clock τ α]

/-- A bucket for settings, if there are any. -/
def createBucket (settings : Option (BucketSettings α)) (now : τ) :
    Except (BucketError α) (Option (Bucket τ α)) :=
  match settings with
  | none => .ok none
  | some s =>
    match Bucket.create s now with
    | .error e => .error e
    | .ok b => .ok (some b)

/-- A limiter as its settings ask for. The first bucket that cannot be set up is reported. -/
def create (s : LimitSettings α) (now : τ) : Except (BucketError α) (Limiter τ α) := do
  let connections ← createBucket s.connections now
  let requests ← createBucket s.requests now
  let data ← createBucket s.data now
  return ⟨connections, requests, data⟩

def bucket? (l : Limiter τ α) : Gate → Option (Bucket τ α)
  | .connections => l.connections
  | .requests => l.requests
  | .data => l.data

def setBucket (l : Limiter τ α) (gate : Gate) (b : Bucket τ α) : Limiter τ α :=
  match gate with
  | .connections => { l with connections := some b }
  | .requests => { l with requests := some b }
  | .data => { l with data := some b }

def request (l : Limiter τ α) (gate : Gate) (amount : α) (started : τ) :
    Reply τ α × Limiter τ α :=
  match l.bucket? gate with
  | none => (.settled ⟨true, amount, Clock.start α⟩, l)
  | some b =>
    let (reply, b) := b.request amount started
    (reply, l.setBucket gate b)

/-- Asks for one unit: a connection or a request. -/
def enter (l : Limiter τ α) (gate : Gate) (started : τ) : Reply τ α × Limiter τ α :=
  l.request gate (Quantity.ofNat 1) started

/-- Takes units at a gate if they are there; `none` if the gate has no bucket. -/
def takeNow (l : Limiter τ α) (gate : Gate) (amount : α) (now : τ) :
    Option Bool × Limiter τ α :=
  match l.bucket? gate with
  | none => (none, l)
  | some b =>
    let (taken, b) := b.takeNow amount now
    (some taken, l.setBucket gate b)

def cancel (l : Limiter τ α) (gate : Gate) (id : Nat) (now : τ) : Limiter τ α :=
  match l.bucket? gate with
  | none => l
  | some b => l.setBucket gate (b.cancel id now)

def pass (l : Limiter τ α) (gate : Gate) (now : τ) : Limiter τ α × List (Resolution τ α) :=
  match l.bucket? gate with
  | none => (l, [])
  | some b =>
    let (b, resolved) := b.pass now
    (l.setBucket gate b, resolved)

def denyGate (l : Limiter τ α) (gate : Gate) (now : τ) : Limiter τ α × List (Resolution τ α) :=
  match l.bucket? gate with
  | none => (l, [])
  | some b =>
    let (b, resolved) := b.denyAll now
    (l.setBucket gate b, resolved)

/-- Shuts every gate: everybody in line and every later request is denied. -/
def denyAll (l : Limiter τ α) (now : τ) : Limiter τ α × List (Gate × Resolution τ α) :=
  Gate.all.foldl (fun (l, resolved) gate =>
    let (l, more) := l.denyGate gate now
    (l, resolved ++ more.map (gate, ·))) (l, [])

/-- The gates that have buckets, with the state of each. -/
def snapshots (l : Limiter τ α) (now : τ) : List (Gate × Snapshot α) :=
  Gate.all.filterMap fun gate => (l.bucket? gate).map fun b => (gate, b.snapshot now)

end Limiter

end Turnstile.Metering
