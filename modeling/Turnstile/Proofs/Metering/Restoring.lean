import Mathlib
import Turnstile.Proofs.Metering.Refilling

/-!
# Requests that get nothing cost nothing

Units that are given to somebody in line leave the volume, so that the bucket has room for more in
the meantime, and when they come back they are cut off at the capacity once more. In sum nothing is
lost and nothing is gained. What a bucket holds together with what those in line have been given,
as far as it fits, is its worth, and nothing changes that but time and what is handed out
(`worthAt_perform`). When nobody is in line any more, it is the volume.
-/

namespace Turnstile.Metering.Bucket

open Quantity

variable {b b' : Bucket Rat Rat} {now t : Rat}

/-- What a bucket holds and has given to those in line, as far as it fits. -/
def worth (b : Bucket Rat Rat) : Rat := min (b.volume + held b.waiters) b.terms.capacity

def worthAt (b : Bucket Rat Rat) (now : Rat) : Rat := (b.refill now).worth

theorem worthAt_eq (rate : 0 ≤ b.terms.rate) (nonneg : 0 ≤ held b.waiters)
    (before : b.lastRefill ≤ t) :
    b.worthAt t = min (b.worth + (t - b.lastRefill) * b.terms.rate) b.terms.capacity := by
  have inflow : 0 ≤ (t - b.lastRefill) * b.terms.rate := mul_nonneg (sub_nonneg.2 before) rate
  change min (b.volumeAt t + held b.waiters) b.terms.capacity = _
  rw [volumeAt_eq b before, worth, min_min_add nonneg, min_min_add inflow]
  ring_nf

theorem worthAt_of_empty (empty : b.waiters = []) (t : Rat) : b.worthAt t = b.volumeAt t := by
  change min (b.volumeAt t + held b.waiters) b.terms.capacity = b.volumeAt t
  rw [empty]
  change min (b.volumeAt t + 0) b.terms.capacity = b.volumeAt t
  rw [add_zero]
  exact min_eq_left (volumeAt_le b t)

/-- A pass that grants nothing only moves units between the volume and those in line. -/
theorem serve_worth {terms : Terms Rat} {waiters : List (Waiter Rat Rat)}
    (fits : ∀ w ∈ waiters, w.Fits terms) (volume : Rat)
    (nobody : (serve terms now volume waiters).resolved = []) :
    min ((serve terms now volume waiters).volume + held (serve terms now volume waiters).waiters)
        terms.capacity = min (volume + held waiters) terms.capacity := by
  induction waiters generalizing volume with
  | nil => rfl
  | cons w rest ih =>
    obtain ⟨first, fits⟩ := List.forall_mem_cons.1 fits
    have others : 0 ≤ held rest := held_nonneg fits
    have whole : held (w :: rest) = w.granted + held rest := rfl
    unfold serve at nobody ⊢
    by_cases gone : (!w.live) = true
    · rw [if_pos gone] at nobody ⊢
      rw [ih fits _ nobody, credited_eq, min_min_add others, whole, add_assoc]
    · rw [if_neg gone] at nobody ⊢
      obtain ⟨same, -, gift, -, moved, kind⟩ := deliver_spec terms volume first.fair
      dsimp only at nobody ⊢
      by_cases filled : isFilled (deliver terms volume w).1 = true
      · rw [if_pos filled] at nobody
        cases nobody
      · rw [if_neg filled]
        have nothing : gift = 0 := by
          refine kind.resolve_right ?_
          rintro ⟨all, -⟩
          apply filled
          exact isFilled_of_granted (all.trans same.symm)
        have whole' : held ((deliver terms volume w).1 :: rest) =
            (deliver terms volume w).1.granted + held rest := rfl
        rw [nothing, add_zero] at moved
        rw [whole', whole, ← add_assoc, moved, add_assoc]

theorem worth_pass (within : InBounds b) (level : b.volumeAt now = b.volume)
    (nothing : Report.handedOut (.resolved (b.pass now).2) = []) :
    (b.pass now).1.worth = b.worth := by
  have granted : ∀ r ∈ (b.pass now).2, r.grant.granted = true := serve_granted _ _ _ _
  rw [Report.handedOut, List.filter_eq_self.2 granted] at nothing
  have nobody : (b.pass now).2 = [] := List.map_eq_nil_iff.1 nothing
  refine (serve_worth within.waiters (b.volumeAt now) nobody).trans ?_
  rw [level, worth]

theorem worth_withdraw (within : InBounds b) {id : Nat} (level : b.volumeAt now = b.volume)
    {w : Waiter Rat Rat} (first : b.waiters.find? (·.id == id) = some w) :
    worth { b.refill now with
      waiters := b.waiters.eraseP (·.id == id)
      volume := credited b.terms (b.volumeAt now) w.granted } = b.worth := by
  have rest : 0 ≤ held (b.waiters.eraseP (·.id == id)) :=
    held_nonneg fun w mem => within.waiters w (List.mem_of_mem_eraseP mem)
  change min (credited b.terms (b.volumeAt now) w.granted + held (b.waiters.eraseP (·.id == id)))
    b.terms.capacity = min (b.volume + held b.waiters) b.terms.capacity
  rw [held_eraseP first, credited_eq, level, min_min_add rest]
  ring_nf

theorem worth_denyAll (b : Bucket Rat Rat) (now : Rat) : (b.denyAll now).1.worth = b.worth := by
  have returned := foldl_granted b.waiters 0
  rw [zero_add] at returned
  simp only [worth, denyAll, notify_volume, notify_waiters, notify_terms, returned, credited_eq]
  simp [held]

@[simp] theorem worth_notify (b : Bucket Rat Rat) : b.notify.worth = b.worth := by
  rw [worth, notify_volume, notify_waiters, notify_terms]
  rfl

/-- On a bucket that is up to date as far as an action needs it, what hands out nothing leaves the
worth as it is. -/
theorem worth_perform (within : InBounds b) {a : Action Rat}
    (level : b.refills a = true → b.refill now = b)
    (nothing : (b.perform now a).2.handedOut = []) : (b.perform now a).1.worth = b.worth := by
  have performed := b.performed now a
  generalize b.perform now a = outcome at performed nothing ⊢
  cases performed with
  | @takeNow amount _ took =>
    cases took with
    | refused => rfl
    | taken => cases nothing
    | short valid opened empty =>
      have same := level (by simp [refills, valid, opened, empty])
      exact congrArg worth same
  | @request amount _ requested =>
    cases requested with
    | refused => rfl
    | granted => cases nothing
    | hopeless opened valid =>
      have same := level (by simp [refills, valid, opened])
      exact congrArg worth same
    | queued opened valid =>
      have same := level (by simp [refills, valid, opened])
      change ((b.refill now).enqueue amount now).worth = b.worth
      rw [same]
      simp [worth, enqueue, held]
  | hangUp id =>
    change min (b.volume + held (b.hangUp id).waiters) b.terms.capacity = b.worth
    rw [held_hangUp]
    rfl
  | @withdraw id _ withdrew =>
    cases withdrew with
    | gone => rfl
    | @found w first =>
      have there : b.refills (.withdraw id : Action Rat) = true := by
        have same : w.id = id := by simpa using List.find?_some first
        exact List.contains_iff_mem.2
          (same ▸ List.mem_map_of_mem (List.mem_of_find?_eq_some first))
      have volume : b.volumeAt now = b.volume := congrArg Bucket.volume (level there)
      exact (worth_notify _).trans (worth_withdraw within volume first)
  | pass => exact worth_pass within (congrArg Bucket.volume (level rfl)) nothing
  | denyAll => exact worth_denyAll b now

/-- Whatever hands out nothing leaves the worth at all later times as it was. -/
theorem worthAt_perform (within : InBounds b) (reached : b.lastRefill ≤ now) {a : Action Rat}
    (nothing : (b.perform now a).2.handedOut = []) (later : now ≤ t) :
    (b.perform now a).1.worthAt t = b.worthAt t := by
  have within' := within.perform now a
  have rate : 0 ≤ b.terms.rate := within.sound.rate.le
  have rate' : 0 ≤ (b.perform now a).1.terms.rate := within'.sound.rate.le
  have last := perform_lastRefill b now a
  have before' : (b.perform now a).1.lastRefill ≤ t := by
    rw [last]
    split
    · exact later
    · exact reached.trans later
  have worthAt' := worthAt_eq rate' (held_nonneg within'.waiters) before'
  rw [perform_terms] at worthAt'
  by_cases busy : b.refills a = true
  · have levelled : (b.refill now).worthAt t = b.worthAt t := by
      rw [worthAt, worthAt, refill_later rate reached later]
    have withinRefilled : InBounds (b.refill now) :=
      within.of_volume rfl (within.volumeAt now) rfl rfl
    have refilled := worthAt_eq (b := b.refill now) rate (held_nonneg withinRefilled.waiters) later
    have same : (b.perform now a).1.worth = (b.refill now).worth := by
      rw [← perform_refill b now busy] at nothing ⊢
      exact worth_perform withinRefilled (fun _ => refill_refill b now) nothing
    rw [if_pos busy] at last
    rw [worthAt', last, same, ← levelled, refilled]
    rfl
  · have same : (b.perform now a).1.worth = b.worth :=
      worth_perform within (fun refills => absurd refills busy) nothing
    rw [if_neg busy] at last
    rw [worthAt', last, same, worthAt_eq rate (held_nonneg within.waiters) (reached.trans later)]

theorem worthAt_after (within : InBounds b) {start : Rat} (reached : b.lastRefill ≤ start)
    {steps : List (Rat × Action Rat)}
    (ordered : (start :: (steps.map (·.1) ++ [t])).Pairwise (· ≤ ·))
    (nothing : ∀ r ∈ b.reports steps, r.handedOut = []) :
    (b.after steps).worthAt t = b.worthAt t := by
  induction steps generalizing b start with
  | nil => rfl
  | cons s rest ih =>
    obtain ⟨first, ordered⟩ := List.pairwise_cons.1 ordered
    obtain ⟨nothing₁, nothing⟩ := List.forall_mem_cons.1 nothing
    have reached : b.lastRefill ≤ s.1 := reached.trans (first s.1 (by simp))
    have later : s.1 ≤ t := (List.pairwise_cons.1 ordered).1 t (by simp)
    have reached' : (b.perform s.1 s.2).1.lastRefill ≤ s.1 := by
      rw [perform_lastRefill]
      split
      · exact le_rfl
      · exact reached
    have whole := ih (within.perform s.1 s.2) reached' ordered nothing
    exact whole.trans (worthAt_perform within reached nothing₁ later)

/-- Start from any bucket with nobody in line, and let requests be made, passes be made, units be
delivered bit by bit and requests be given up or denied, as long as nothing is handed out. At every
time the volume, with what those in line have been given, is as far as it fits what would be there
if nothing of that had happened; once nobody is in line, that is the volume. -/
theorem volume_without_trace {settings : BucketSettings Rat} {made : Rat} {b₀ : Bucket Rat Rat}
    (created : create settings made = .ok b₀) (before : List (Rat × Action Rat))
    (empty : (b₀.after before).waiters = []) {start : Rat}
    (reached : (b₀.after before).lastRefill ≤ start) {steps : List (Rat × Action Rat)}
    (ordered : (start :: (steps.map (·.1) ++ [t])).Pairwise (· ≤ ·))
    (nothing : ∀ r ∈ (b₀.after before).reports steps, r.handedOut = []) :
    let b := b₀.after before
    let b' := b.after steps
    let untouched := min b₀.terms.capacity (b.volumeAt start + b₀.terms.rate * (t - start))
    min b₀.terms.capacity (b'.volumeAt t + held b'.waiters) = untouched ∧
      (b'.waiters = [] → b'.volumeAt t = untouched) := by
  intro b b' untouched
  have within : InBounds b := (inBounds_create created).after before
  have terms : b.terms = b₀.terms := after_terms b₀ before
  have terms' : b'.terms = b₀.terms := (after_terms b steps).trans terms
  have later : start ≤ t := (List.pairwise_cons.1 ordered).1 t (by simp)
  have same : b'.worthAt t = b.worthAt t := worthAt_after within reached ordered nothing
  have alone : b.worthAt t = untouched := by
    rw [worthAt_of_empty empty, volumeAt_later within.sound.rate.le reached later, terms, min_comm,
      mul_comm]
  refine ⟨?_, fun nobody => ?_⟩
  · rw [min_comm, ← terms']
    exact same.trans alone
  · rw [← worthAt_of_empty nobody, same, alone]

/-- Four get in line. The second gives up and gets nothing, the first gives up with five of its nine
units, more than the bucket holds, and the third has three when the bucket is shut down. -/
theorem volume_without_trace_full :
    let b₀ : Bucket Rat Rat := ⟨⟨4, 1, true, none, 3⟩, 3, 0, [], 0, false, .absent, false⟩
    let steps : List (Rat × Action Rat) := [(1, .request 9), (1, .request 6), (1, .pass),
      (2, .request 5), (4, .hangUp 1), (4, .withdraw 1), (5, .pass), (6, .request 8),
      (7, .hangUp 0), (7, .pass), (8, .withdraw 0), (9, .denyAll)]
    let b := b₀.after [(0, .takeNow 2)]
    let b' := b.after steps
    create ⟨⟨"1/s", 1⟩, 4, none, some 3, some 3, true⟩ 0 = .ok b₀ ∧
      (b.after (steps.take 7)).waiters.map (·.granted) = [5, 0] ∧
      (b.after (steps.take 10)).waiters.map (·.granted) = [3, 0] ∧
      b'.volumeAt 9 = min 4 (b.volumeAt 1 + 1 * (9 - 1)) := by
  intro b₀ steps b b'
  have created : create ⟨⟨"1/s", 1⟩, 4, none, some 3, some 3, true⟩ 0 = .ok b₀ := rfl
  have nothing : ∀ r ∈ b.reports steps, r.handedOut = [] := by decide +kernel
  have ordered : (1 :: (steps.map (·.1) ++ [9])).Pairwise (· ≤ ·) := by decide +kernel
  have whole := volume_without_trace created [(0, .takeNow 2)] (by decide +kernel)
    (by decide +kernel) ordered nothing
  exact ⟨created, by decide +kernel, by decide +kernel, whole.2 (by decide +kernel)⟩

end Turnstile.Metering.Bucket
