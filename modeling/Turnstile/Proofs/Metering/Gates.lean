import Turnstile.Metering.Limiter
import Turnstile.Proofs.Metering.Line

namespace Turnstile.Metering

open Quantity

variable {τ α : Type}

def Reply.admits : Reply τ α → Bool
  | .settled grant => grant.granted
  | .queued _ => true

variable [Quantity α]

def BucketSettings.asked (s : BucketSettings α) : Terms α :=
  ⟨s.maxBurst, s.flowRate.perSecond, s.partialGrants, s.maxQueue,
    s.maxQueueGrant.getD s.maxBurst⟩

theorem BucketSettings.terms_asked {s : BucketSettings α} {t : Terms α} {volume : α}
    (agreed : s.terms = .ok (t, volume)) : t = s.asked := by
  unfold terms at agreed
  dsimp only at agreed
  iterate 4
    split at agreed
    · cases agreed
  cases agreed
  rfl

namespace Bucket

theorem exceeds_eq_false_iff {t : Terms α} {amount : α} :
    exceeds t amount = false ↔ t.partialGrants = true ∨ ¬ t.capacity + slack < amount := by
  unfold exceeds
  rw [Bool.and_eq_false_iff, Bool.not_eq_false', decide_eq_false_iff_not]

theorem create_asked {settings : BucketSettings α} {start : τ} {b : Bucket τ α}
    (created : create settings start = .ok b) : b.terms = settings.asked := by
  unfold create at created
  split at created
  · cases created
  · next agreed =>
    cases created
    exact BucketSettings.terms_asked agreed

theorem create_terms {settings : BucketSettings α} {start : τ} {b : Bucket τ α}
    (created : create settings start = .ok b) :
    b.terms.capacity = settings.maxBurst ∧ b.terms.partialGrants = settings.partialGrants := by
  rw [create_asked created]
  exact ⟨rfl, rfl⟩

variable [Clock τ α]

/-- A request is admitted if the units are there and nobody is before it, and otherwise if it is not
too large and there is room in line. -/
theorem admits_request_iff (b : Bucket τ α) (amount : α) (now : τ) :
    (b.request amount now).1.admits = true ↔ b.closed = false ∧ isValid amount = true ∧
      (b.waiters = [] ∧ covers (b.volumeAt now) amount = true ∨
        exceeds b.terms amount = false ∧ b.isFull = false) := by
  have same : (b.refill now).isFull = b.isFull := rfl
  unfold request
  dsimp only
  split
  · next no =>
    have no : b.closed = true ∨ isValid amount = false := by simpa using no
    rcases no with closed | invalid
    · simp [Reply.admits, denied, closed]
    · simp [Reply.admits, denied, invalid]
  · next yes =>
    obtain ⟨opened, valid⟩ : b.closed = false ∧ isValid amount = true := by simpa using yes
    split
    · next both =>
      obtain ⟨empty, covered⟩ := Bool.and_eq_true_iff.1 both
      exact iff_of_true rfl ⟨opened, valid, .inl ⟨List.isEmpty_iff.1 empty, covered⟩⟩
    · next short =>
      have short : ¬ (b.waiters = [] ∧ covers (b.volumeAt now) amount = true) := fun both =>
        short (Bool.and_eq_true_iff.2 ⟨List.isEmpty_iff.2 both.1, both.2⟩)
      split
      · next large =>
        refine iff_of_false Bool.false_ne_true fun fits => short (fits.2.2.resolve_right ?_)
        exact fun small => Bool.false_ne_true (small.1.symm.trans large)
      · next small =>
        rw [same]
        split
        · next full =>
          refine iff_of_false Bool.false_ne_true fun fits => short (fits.2.2.resolve_right ?_)
          exact fun room => Bool.false_ne_true (room.2.symm.trans full)
        · next room =>
          exact iff_of_true rfl
            ⟨opened, valid, .inr ⟨Bool.not_eq_true _ ▸ small, Bool.not_eq_true _ ▸ room⟩⟩

end Bucket

namespace Limiter

/-- What is set up at a gate is what its settings ask for. -/
theorem create_bucket? {settings : LimitSettings α} {start : τ} {l : Limiter τ α}
    (made : create settings start = .ok l) (gate : Gate) :
    createBucket (settings.bucket? gate) start = .ok (l.bucket? gate) := by
  unfold create at made
  cases connections : createBucket settings.connections start with
  | error e =>
    rw [connections] at made
    cases made
  | ok b =>
    cases requests : createBucket settings.requests start with
    | error e =>
      rw [connections, requests] at made
      cases made
    | ok b' =>
      cases data : createBucket settings.data start with
      | error e =>
        rw [connections, requests, data] at made
        cases made
      | ok b'' =>
        rw [connections, requests, data] at made
        cases made
        cases gate with
        | connections => exact connections
        | requests => exact requests
        | data => exact data

section

variable {settings : LimitSettings α} {start : τ} {l : Limiter τ α}
  (made : create settings start = .ok l) {gate : Gate}
include made

theorem bucket?_of_none (none : settings.bucket? gate = .none) : l.bucket? gate = .none := by
  have created := create_bucket? made gate
  rw [none, createBucket] at created
  exact (Except.ok.inj created).symm

theorem bucket?_of_some {s : BucketSettings α} (some : settings.bucket? gate = .some s) :
    ∃ b, Bucket.create s start = .ok b ∧ l.bucket? gate = .some b := by
  have created := create_bucket? made gate
  rw [some, createBucket] at created
  cases bucket : Bucket.create s start with
  | error e =>
    rw [bucket] at created
    cases created
  | ok b =>
    rw [bucket] at created
    exact ⟨b, rfl, (Except.ok.inj created).symm⟩

end

variable [Clock τ α]

/-- Something is done to the bucket at a gate, if there is one. -/
def act (l : Limiter τ α) (now : τ) (gate : Gate) (a : Bucket.Action α) : Limiter τ α :=
  match l.bucket? gate with
  | none => l
  | some b => l.setBucket gate (b.perform now a).1

def run (l : Limiter τ α) (steps : List (τ × Gate × Bucket.Action α)) : Limiter τ α :=
  steps.foldl (fun l s => l.act s.1 s.2.1 s.2.2) l

/-- What is done at one gate. -/
def stepsAt (gate : Gate) (steps : List (τ × Gate × Bucket.Action α)) :
    List (τ × Bucket.Action α) :=
  steps.filterMap fun s => if s.2.1 = gate then some (s.1, s.2.2) else none

/-- Whatever a limiter does is something that is done to one of its buckets. -/
theorem does_act (l : Limiter τ α) (gate : Gate) (now : τ) :
    (∀ amount, (l.request gate amount now).2 = l.act now gate (.request amount)) ∧
      (∀ amount, (l.takeNow gate amount now).2 = l.act now gate (.takeNow amount)) ∧
      (∀ id, l.cancel gate id now = (l.act now gate (.hangUp id)).act now gate (.withdraw id)) ∧
      (l.pass gate now).1 = l.act now gate .pass ∧
      (l.denyGate gate now).1 = l.act now gate .denyAll := by
  unfold request takeNow cancel pass denyGate act
  cases there : l.bucket? gate with
  | none => simp [there]
  | some b => cases gate <;> simp [Bucket.perform, Bucket.cancel, setBucket, bucket?]

theorem act_bucket? (l : Limiter τ α) (now : τ) (gate other : Gate) (a : Bucket.Action α) :
    (l.act now gate a).bucket? other =
      if gate = other then (l.bucket? other).map fun b => (b.perform now a).1
      else l.bucket? other := by
  unfold act
  split
  · next none =>
    split
    · next same => rw [← same, none, Option.map_none]
    · rfl
  · next b some =>
    split
    · next same =>
      rw [← same, some, Option.map_some]
      cases gate <;> rfl
    · next apart => cases gate <;> cases other <;> first | rfl | exact absurd rfl apart

/-- The bucket at a gate has been through what was done at that gate, and nothing else. -/
theorem run_bucket? (l : Limiter τ α) (steps : List (τ × Gate × Bucket.Action α)) (gate : Gate) :
    (l.run steps).bucket? gate = (l.bucket? gate).map (·.after (stepsAt gate steps)) := by
  induction steps generalizing l with
  | nil => exact (Option.map_id' (x := l.bucket? gate)).symm
  | cons s rest ih =>
    have later := ih (l.act s.1 s.2.1 s.2.2)
    rw [act_bucket?] at later
    refine later.trans ?_
    unfold stepsAt
    rw [List.filterMap_cons]
    by_cases here : s.2.1 = gate
    · rw [if_pos here, if_pos here, Option.map_map]
      rfl
    · rw [if_neg here, if_neg here]

/-- A gate without a bucket lets everything through; otherwise the bucket there decides. -/
theorem admits_enter (l : Limiter τ α) (gate : Gate) (now : τ) :
    (l.enter gate now).1.admits =
      (l.bucket? gate).all fun b => (b.request (ofNat 1) now).1.admits := by
  unfold enter request
  cases l.bucket? gate <;> rfl

end Limiter

end Turnstile.Metering
