import Turnstile.Metering.Bucket

namespace Turnstile.Metering.Bucket

/-- What callers and the servicer do, each in one atomic step at the time at which it gets hold of
the bucket. A caller that gives up a request does so in two steps: it hangs up, and then takes the
request out of the line. A pass may come between the two. -/
inductive Action (α : Type) where
  | takeNow (amount : α)
  | request (amount : α)
  | hangUp (id : Nat)
  | withdraw (id : Nat)
  | pass
  | denyAll
deriving Repr

inductive Report (τ α : Type) where
  | taken (amount : α) (success : Bool)
  | answered (reply : Reply τ α)
  | resolved (ended : List (Resolution τ α))
  | silent
deriving Repr

variable {τ α : Type}

/-- The outcomes that an action sends to those who wait for them. -/
def Report.sent : Report τ α → List (Resolution τ α)
  | .resolved ended => ended
  | .taken _ _ | .answered _ | .silent => []

/-- The numbers that an action gives to those who get in line. -/
def Report.joined : Report τ α → List Nat
  | .answered (.queued id) => [id]
  | .answered (.settled _) | .taken _ _ | .resolved _ | .silent => []

section

variable (b : Bucket τ α)

@[simp] theorem notify_terms : b.notify.terms = b.terms := by
  unfold notify
  split <;> rfl

@[simp] theorem notify_waiters : b.notify.waiters = b.waiters := by
  unfold notify
  split <;> rfl

@[simp] theorem notify_lastRefill : b.notify.lastRefill = b.lastRefill := by
  unfold notify
  split <;> rfl

@[simp] theorem notify_volume : b.notify.volume = b.volume := by
  unfold notify
  split <;> rfl

@[simp] theorem notify_nextId : b.notify.nextId = b.nextId := by
  unfold notify
  split <;> rfl

@[simp] theorem notify_closed : b.notify.closed = b.closed := by
  unfold notify
  split <;> rfl

end

structure Fresh (b : Bucket τ α) (start : τ) : Prop where
  lastRefill : b.lastRefill = start
  waiters : b.waiters = []
  nextId : b.nextId = 0
  closed : b.closed = false
  servicer : b.servicer = .absent
  permit : b.permit = false

theorem fresh_create [Quantity α] {settings : BucketSettings α} {start : τ} {b : Bucket τ α}
    (created : create settings start = .ok b) : Fresh b start := by
  unfold create at created
  split at created
  · cases created
  · cases created
    exact ⟨rfl, rfl, rfl, rfl, rfl, rfl⟩

variable [Quantity α] [Clock τ α]

def perform (b : Bucket τ α) (now : τ) : Action α → Bucket τ α × Report τ α
  | .takeNow amount =>
    let (success, b) := b.takeNow amount now
    (b, .taken amount success)
  | .request amount =>
    let (reply, b) := b.request amount now
    (b, .answered reply)
  | .hangUp id => (b.hangUp id, .silent)
  | .withdraw id => (b.withdraw id now, .silent)
  | .pass =>
    let (b, ended) := b.pass now
    (b, .resolved ended)
  | .denyAll =>
    let (b, ended) := b.denyAll now
    (b, .resolved ended)

/-- The amounts that an action hands out: those taken, and those of requests that are granted. -/
def Report.handedOut : Report τ α → List α
  | .taken amount success => if success then [amount] else []
  | .answered (.settled grant) => if grant.granted then [grant.amount] else []
  | .answered (.queued _) => []
  | .resolved ended => (ended.filter (·.grant.granted)).map (·.grant.amount)
  | .silent => []

def after (b : Bucket τ α) (steps : List (τ × Action α)) : Bucket τ α :=
  steps.foldl (fun b s => (b.perform s.1 s.2).1) b

/-- What is known after each action of a run. -/
def reports (b : Bucket τ α) : List (τ × Action α) → List (Report τ α)
  | [] => []
  | s :: rest => (b.perform s.1 s.2).2 :: reports (b.perform s.1 s.2).1 rest

end Turnstile.Metering.Bucket
