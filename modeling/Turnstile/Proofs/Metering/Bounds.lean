import Mathlib
import Turnstile.Proofs.Metering.Conservation

/-!
# What a bucket never leaves

Whatever happens to a bucket and whatever clock readings come with it, also one that goes back, its
volume stays between nothing and the capacity, its line stays within the limit, and nobody in line
has been given less than nothing or more than asked for (`within_bounds`).

The parts need each other. What those in line have been given is returned to the volume when they
give up or the bucket is shut down, so it may not be negative; a pass hands on what is outstanding,
so nobody may have more than asked for; and a bucket that is shut down has no line, because nobody
gets in line after the shutdown.
-/

namespace Turnstile.Metering

open Quantity

theorem Clock.elapsed_nonneg (earlier later : Rat) : (0 : Rat) ≤ Clock.elapsed earlier later := by
  show (0 : Rat) ≤ if earlier ≤ later then later - earlier else 0
  split
  · next h => exact sub_nonneg.2 h
  · exact le_rfl

structure Terms.Holds (t : Terms Rat) (volume : Rat) : Prop where
  nonneg : 0 ≤ volume
  fits : volume ≤ t.capacity

structure Waiter.Fits (t : Terms Rat) (w : Waiter Rat Rat) : Prop where
  nonneg : 0 ≤ w.granted
  fair : w.granted ≤ w.requested
  /-- Who is filled at one stroke can be filled, and has been given nothing yet. -/
  whole : t.partialGrants = false → w.requested ≤ t.capacity + slack ∧ w.granted = 0

variable {t : Terms Rat} {volume amount : Rat} {w : Waiter Rat Rat}

theorem Terms.Holds.credited (holds : t.Holds volume) (nonneg : 0 ≤ amount) :
    t.Holds (Bucket.credited t volume amount) := by
  have capacity := holds.nonneg.trans holds.fits
  rw [Bucket.credited_eq]
  exact ⟨le_min (add_nonneg holds.nonneg nonneg) capacity, min_le_right _ _⟩

theorem Terms.Holds.debited (holds : t.Holds volume) (nonneg : 0 ≤ amount) :
    t.Holds (Bucket.debited volume amount) := by
  have capacity := holds.nonneg.trans holds.fits
  have less : volume - amount ≤ t.capacity := by linarith [holds.fits]
  rw [Bucket.debited_eq]
  exact ⟨le_max_right _ _, max_le less capacity⟩

theorem Waiter.Fits.step_nonneg (fits : w.Fits t) (sound : t.Sound) : 0 ≤ Bucket.step t w := by
  have outstanding := sub_nonneg.2 fits.fair
  unfold Bucket.step
  split
  · rw [atMost_eq]
    exact le_min outstanding sound.step.le
  · exact outstanding

/-- Who is given something and is not filled by it has been filled bit by bit. -/
theorem Terms.Holds.deliver (holds : t.Holds volume) (sound : t.Sound) (fits : w.Fits t) :
    t.Holds (Bucket.deliver t volume w).2 ∧
      (Bucket.isFilled (Bucket.deliver t volume w).1 = true ∨
        (Bucket.deliver t volume w).1.Fits t) := by
  have next := fits.step_nonneg sound
  unfold Bucket.deliver
  split
  · next bits =>
    have delivered : 0 ≤ atMost volume (Bucket.step t w) := by
      rw [atMost_eq]
      exact le_min holds.nonneg next
    have outstanding : atMost volume (Bucket.step t w) ≤ w.requested - w.granted := by
      simp only [Bucket.step, bits, if_true, atMost_eq]
      exact (min_le_right _ _).trans (min_le_left _ _)
    dsimp only
    split
    · refine ⟨holds.debited delivered, .inr ⟨?_, ?_, fun whole => ?_⟩⟩
      · exact add_nonneg fits.nonneg delivered
      · show w.granted + atMost volume (Bucket.step t w) ≤ w.requested
        linarith
      · rw [bits] at whole
        cases whole
    · exact ⟨holds, .inr fits⟩
  · split
    · exact ⟨holds.debited next, .inl (Bucket.isFilled_of_granted rfl)⟩
    · exact ⟨holds, .inr fits⟩

namespace Bucket

theorem held_nonneg {waiters : List (Waiter Rat Rat)} (fits : ∀ w ∈ waiters, w.Fits t) :
    0 ≤ held waiters := by
  apply List.sum_nonneg
  intro x mem
  obtain ⟨w, inLine, rfl⟩ := List.mem_map.1 mem
  exact (fits w inLine).nonneg

/-- A pass leaves a volume that the terms allow, and in line some of those who were there. -/
theorem serve_within (sound : t.Sound) (now : Rat) (holds : t.Holds volume)
    {waiters : List (Waiter Rat Rat)} (fits : ∀ w ∈ waiters, w.Fits t) :
    t.Holds (serve t now volume waiters).volume ∧
      ∀ w ∈ (serve t now volume waiters).waiters, w.Fits t := by
  induction waiters generalizing volume with
  | nil => exact ⟨holds, fits⟩
  | cons w rest ih =>
    obtain ⟨first, later⟩ := List.forall_mem_cons.1 fits
    obtain ⟨left, kept⟩ := holds.deliver sound first
    unfold serve
    split
    · exact ih (holds.credited first.nonneg) later
    · dsimp only
      split
      · exact ih left later
      · next unfilled => exact ⟨left, List.forall_mem_cons.2 ⟨kept.resolve_left unfilled, later⟩⟩

theorem serve_length (t : Terms Rat) (now volume : Rat) (waiters : List (Waiter Rat Rat)) :
    (serve t now volume waiters).waiters.length ≤ waiters.length := by
  have fewer := (serve_line t now volume waiters).length_le
  simp only [List.length_append, List.length_map] at fewer
  omega

structure InBounds (b : Bucket Rat Rat) : Prop where
  sound : b.terms.Sound
  volume : b.terms.Holds b.volume
  room : ∀ most, b.terms.maxWaiters = some most → b.waiters.length ≤ most
  waiters : ∀ w ∈ b.waiters, w.Fits b.terms
  shut : b.closed = true → b.waiters = []

variable {b b' : Bucket Rat Rat}

theorem InBounds.volumeAt (within : InBounds b) (now : Rat) : b.terms.Holds (b.volumeAt now) := by
  have inflow := mul_nonneg (Clock.elapsed_nonneg b.lastRefill now) within.sound.rate.le
  unfold Bucket.volumeAt
  rw [atMost_eq]
  exact ⟨le_min (add_nonneg within.volume.nonneg inflow) within.sound.capacity.le,
    min_le_right _ _⟩

/-- Nobody has come to the line. -/
theorem InBounds.of_fewer (within : InBounds b) (terms : b'.terms = b.terms)
    (volume : b.terms.Holds b'.volume) (waiters : ∀ w ∈ b'.waiters, w.Fits b.terms)
    (fewer : b'.waiters.length ≤ b.waiters.length) (closed : b'.closed = b.closed) :
    InBounds b' where
  sound := terms ▸ within.sound
  volume := terms ▸ volume
  room most limit := fewer.trans (within.room most (terms ▸ limit))
  waiters := terms ▸ waiters
  shut shut := by
    have empty := within.shut (closed ▸ shut)
    rw [empty] at fewer
    exact List.eq_nil_of_length_eq_zero (Nat.le_zero.1 fewer)

/-- Only the volume has changed. -/
theorem InBounds.of_volume (within : InBounds b) (terms : b'.terms = b.terms)
    (volume : b.terms.Holds b'.volume) (waiters : b'.waiters = b.waiters)
    (closed : b'.closed = b.closed) : InBounds b' :=
  within.of_fewer terms volume (waiters ▸ within.waiters) (waiters ▸ le_rfl) closed

theorem InBounds.enqueue (within : InBounds b) {now : Rat} (opened : b.closed = false)
    (valid : isValid amount = true) (fits : exceeds b.terms amount = false)
    (room : b.isFull = false) : InBounds ((b.refill now).enqueue amount now) where
  sound := within.sound
  volume := within.volumeAt now
  room most limit := by
    have limit : b.terms.maxWaiters = some most := limit
    have free : ¬ most ≤ b.waiters.length := by simpa [isFull, limit] using room
    show (b.waiters ++ [_]).length ≤ most
    rw [List.length_append, List.length_singleton]
    omega
  waiters w mem := by
    rcases List.mem_append.1 mem with mem | mem
    · exact within.waiters w mem
    · obtain rfl := List.mem_singleton.1 mem
      refine ⟨le_rfl, (isValid_iff _).1 valid, fun whole => ⟨?_, rfl⟩⟩
      have whole : b.terms.partialGrants = false := whole
      have small : ¬ b.terms.capacity + slack < amount := by simpa [exceeds, whole] using fits
      exact not_lt.1 small
  shut shut := by
    have shut : b.closed = true := shut
    rw [opened] at shut
    cases shut

theorem InBounds.hangUp (within : InBounds b) (id : Nat) : InBounds (b.hangUp id) := by
  refine within.of_fewer rfl within.volume (fun w mem => ?_) (List.length_map _).le rfl
  obtain ⟨w', mem', rfl⟩ := List.mem_map.1 mem
  have fits := within.waiters w' mem'
  split
  · exact ⟨fits.nonneg, fits.fair, fits.whole⟩
  · exact fits

theorem InBounds.withdraw (within : InBounds b) {id : Nat} {now : Rat}
    (withdrew : Withdrew b id now b') : InBounds b' := by
  have line := withdrew.waiters
  cases withdrew with
  | gone => exact within
  | found first =>
    have returned := (within.waiters _ (List.mem_of_find?_eq_some first)).nonneg
    refine within.of_fewer (notify_terms _) ?_ ?_ ?_ (notify_closed _)
    · rw [notify_volume]
      exact (within.volumeAt now).credited returned
    · rw [line]
      exact fun w mem => within.waiters w (List.mem_of_mem_eraseP mem)
    · rw [line]
      exact List.length_eraseP_le

theorem InBounds.pass (within : InBounds b) (now : Rat) : InBounds (b.pass now).1 := by
  obtain ⟨volume, waiters⟩ := serve_within within.sound now (within.volumeAt now) within.waiters
  exact within.of_fewer rfl volume waiters (serve_length _ _ _ _) rfl

theorem InBounds.denyAll (within : InBounds b) (now : Rat) : InBounds (b.denyAll now).1 := by
  have returned : 0 ≤ b.waiters.foldl (fun sum w => sum + w.granted) 0 := by
    rw [foldl_granted, zero_add]
    exact held_nonneg within.waiters
  have empty : (b.denyAll now).1.waiters = [] := notify_waiters _
  have terms : (b.denyAll now).1.terms = b.terms := notify_terms _
  refine ⟨terms ▸ within.sound, ?_, ?_, ?_, fun _ => empty⟩
  · rw [terms, Bucket.denyAll, notify_volume]
    exact within.volume.credited returned
  · rw [empty]
    exact fun most _ => Nat.zero_le most
  · rw [empty]
    exact fun w mem => by cases mem

theorem InBounds.perform (within : InBounds b) (now : Rat) (a : Action Rat) :
    InBounds (b.perform now a).1 := by
  have performed := b.performed now a
  generalize b.perform now a = outcome at performed ⊢
  cases performed with
  | takeNow took =>
    cases took with
    | refused => exact within
    | short => exact within.of_volume rfl (within.volumeAt now) rfl rfl
    | taken valid =>
      have paid := (within.volumeAt now).debited ((isValid_iff _).1 valid)
      exact within.of_volume rfl paid rfl rfl
  | request requested =>
    cases requested with
    | refused => exact within
    | hopeless => exact within.of_volume rfl (within.volumeAt now) rfl rfl
    | granted _ valid =>
      have paid := (within.volumeAt now).debited ((isValid_iff _).1 valid)
      exact within.of_volume rfl paid rfl rfl
    | queued opened valid fits room => exact within.enqueue opened valid fits room
  | hangUp id => exact within.hangUp id
  | withdraw withdrew => exact within.withdraw withdrew
  | pass => exact within.pass now
  | denyAll => exact within.denyAll now

theorem InBounds.after (within : InBounds b) (steps : List (Rat × Action Rat)) :
    InBounds (b.after steps) := by
  induction steps generalizing b with
  | nil => exact within
  | cons s rest ih => exact ih (within.perform s.1 s.2)

theorem inBounds_create {settings : BucketSettings Rat} {start : Rat}
    (created : create settings start = .ok b) : InBounds b := by
  obtain ⟨sound, nonneg, fits⟩ := create_sound created
  have empty := (fresh_create created).waiters
  refine ⟨sound, ⟨nonneg, fits⟩, ?_, ?_, fun _ => empty⟩
  · rw [empty]
    exact fun most _ => Nat.zero_le most
  · rw [empty]
    exact fun w mem => by cases mem

/-- Whatever happens to a bucket and whenever it is said to happen, its volume stays between nothing
and the capacity and its line within the limit; numbers rise along the line and were all given out;
nobody in line has less than nothing or more than asked for, and without partial grants nobody has
anything or asks for more than there can be; and after a shutdown the line is empty for good. -/
theorem within_bounds {settings : BucketSettings Rat} {start : Rat} {b : Bucket Rat Rat}
    (created : create settings start = .ok b) (steps : List (Rat × Action Rat)) :
    let b' := b.after steps
    b'.terms = b.terms ∧
      (0 ≤ b'.volume ∧ b'.volume ≤ b.terms.capacity) ∧
      (∀ most, b.terms.maxWaiters = some most → b'.waiters.length ≤ most) ∧
      (b'.line.Pairwise (· < ·) ∧ ∀ id ∈ b'.line, id < b'.nextId) ∧
      (∀ w ∈ b'.waiters, 0 ≤ w.granted ∧ w.granted ≤ w.requested) ∧
      (b.terms.partialGrants = false →
        ∀ w ∈ b'.waiters, w.requested ≤ b.terms.capacity + slack ∧ w.granted = 0) ∧
      (b'.closed = true → b'.waiters = []) ∧
      ∀ now a, b'.closed = true → (b'.perform now a).1.closed = true := by
  intro b'
  have terms : b'.terms = b.terms := after_terms b steps
  have within : InBounds b' := (inBounds_create created).after steps
  have numbered : b'.line.Sublist (List.range b'.nextId) := by
    have fresh := fresh_create created
    have order := reports_line b steps
    rw [fresh.line, List.nil_append, fresh.joined] at order
    exact (List.sublist_append_right _ _).trans order
  refine ⟨terms, ⟨within.volume.nonneg, terms ▸ within.volume.fits⟩, terms ▸ within.room, ⟨?_, ?_⟩,
    ?_, ?_, within.shut, fun now a closed => perform_closed closed now a⟩
  · exact List.pairwise_lt_range.sublist numbered
  · exact fun id mem => List.mem_range.1 (numbered.subset mem)
  · exact fun w mem => ⟨(within.waiters w mem).nonneg, (within.waiters w mem).fair⟩
  · exact fun whole w mem => terms ▸ (within.waiters w mem).whole (terms ▸ whole)

/-- A clock that goes back, a line that is full, one that gives up half filled, and a shutdown. -/
theorem within_bounds_partial :
    let b : Bucket Rat Rat := ⟨⟨10, 2, true, some 2, 4⟩, 0, 0, [], 0, false, .absent, false⟩
    let steps : List (Rat × Action Rat) := [(0, .request 12), (1, .pass), (0, .request 1),
      (2, .request 3), (3, .pass), (1, .withdraw 0), (4, .denyAll)]
    let b' := b.after steps
    create ⟨⟨"2/s", 2⟩, 10, some 2, some 4, some 0, true⟩ 0 = .ok b ∧
      ((b.after (steps.take 5)).waiters.map fun w => (w.id, w.granted)) = [(0, 6), (1, 0)] ∧
      (0 ≤ b'.volume ∧ b'.volume ≤ 10) ∧ b'.closed = true ∧ b'.waiters = [] ∧
      (b'.perform 5 .pass).1.closed = true := by
  intro b steps b'
  have created : create ⟨⟨"2/s", 2⟩, 10, some 2, some 4, some 0, true⟩ 0 = .ok b := rfl
  obtain ⟨-, volume, -, -, -, -, shut, stays⟩ := within_bounds created steps
  have closed : (b.after steps).closed = true := by decide +kernel
  unfold b'
  exact ⟨created, by decide +kernel, volume, closed, shut closed, stays 5 .pass closed⟩

end Bucket

end Turnstile.Metering
