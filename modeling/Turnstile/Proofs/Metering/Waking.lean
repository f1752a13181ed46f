import Mathlib
import Turnstile.Proofs.Metering.Asking
import Turnstile.Proofs.Metering.Refilling

/-!
# What the servicer is woken for

A pass that leaves somebody in line asks for the next one at the time when the first in line can be
given something. `wakes_advance` says exactly when that comes true: where requests are filled at one
stroke, and where they are filled bit by bit in steps that exceed the slack. Then every wake-up but
the last gives a whole step, so nobody is first in line for more wake-ups than there are steps in
what was asked for. Where a step does not exceed the slack, no wake-up gives anything, as often as
the servicer is woken and as much as there is in the bucket.
-/

namespace Turnstile.Metering.Bucket

open Quantity

section

variable {τ α : Type} [Quantity α] [Clock τ α]

/-- When a pass asks for the next one. -/
def wake? (b : Bucket τ α) (now : τ) : Option τ :=
  (serve b.terms now (b.volumeAt now) b.waiters).wake

/-- The first in line that a pass leaves is waited for and does not have all it asked for, and the
next pass is asked for on its account. -/
theorem serve_first {terms : Terms α} {now : τ} {volume : α} {waiters rest : List (Waiter τ α)}
    {w : Waiter τ α} (left : (serve terms now volume waiters).waiters = w :: rest) :
    w.live = true ∧ isFilled w = false ∧ (serve terms now volume waiters).wake =
      some (wakeTime terms (serve terms now volume waiters).volume w now) := by
  induction waiters generalizing volume with
  | nil => cases left
  | cons first others ih =>
    obtain ⟨-, -, live⟩ := deliver_ticket terms volume first
    unfold serve at left ⊢
    by_cases gone : (!first.live) = true
    · rw [if_pos gone] at left ⊢
      exact ih left
    · rw [if_neg gone] at left ⊢
      dsimp only at left ⊢
      by_cases filled : isFilled (deliver terms volume first).1 = true
      · rw [if_pos filled] at left ⊢
        exact ih left
      · rw [if_neg filled] at left ⊢
        obtain ⟨rfl, rfl⟩ := List.cons.inj left
        exact ⟨by simpa [live] using gone, Bool.not_eq_true _ ▸ filled, rfl⟩

/-- What a pass does about the first in line, if somebody waits for it. -/
theorem pass_first {b : Bucket τ α} {w : Waiter τ α} {rest : List (Waiter τ α)}
    (line : b.waiters = w :: rest) (live : w.live = true) (now : τ) :
    let given := (deliver b.terms (b.volumeAt now) w).1
    (isFilled given = true → ∃ r ∈ (b.pass now).2, r.id = w.id ∧ r.grant.granted = true) ∧
      (isFilled given = false → (b.pass now).2 = [] ∧ (b.pass now).1.waiters = given :: rest) := by
  intro given
  have present : ¬ (!w.live) = true := by simp [live]
  have id : given.id = w.id := (deliver_ticket b.terms (b.volumeAt now) w).1
  have sent : (b.pass now).2 = (serve b.terms now (b.volumeAt now) (w :: rest)).resolved := by
    rw [← line]
    rfl
  have left : (b.pass now).1.waiters =
      (serve b.terms now (b.volumeAt now) (w :: rest)).waiters := by
    rw [← line]
    rfl
  rw [sent, left, serve, if_neg present]
  dsimp only
  constructor
  · intro filled
    rw [if_pos filled]
    exact ⟨_, List.mem_cons_self, id, rfl⟩
  · intro unfilled
    rw [if_neg (Bool.not_eq_true _ ▸ unfilled)]
    exact ⟨rfl, rfl⟩

/-- Some of those in line are not waited for any more. -/
def deserted (b : Bucket τ α) (gone : List Nat) : Bucket τ α := gone.foldl hangUp b

end

/-! ### Wake-ups -/

/-- When the next step for somebody in line will have flowed in, however long that takes. -/
def fillTime (b : Bucket Rat Rat) (w : Waiter Rat Rat) (now : Rat) : Rat :=
  now + max (step b.terms w - b.volume) slack / b.terms.rate

/-- The first in line stays there over a number of wake-ups. Each pass comes at the time that the
one before asked for, or later, and nothing is done with the bucket in between; but others may hang
up. No time that was asked for is cut short by the longest sleep. -/
inductive Lingers (b₀ : Bucket Rat Rat) :
    Nat → Bucket Rat Rat → Rat → Waiter Rat Rat → Rat → Prop
  | first {now wake : Rat} {w : Waiter Rat Rat} {rest : List (Waiter Rat Rat)}
      (there : (b₀.pass now).1.waiters = w :: rest) (asked : b₀.wake? now = some wake) :
      Lingers b₀ 0 (b₀.pass now).1 now w wake
  | next {n : Nat} {b : Bucket Rat Rat} {now wake : Rat} {w : Waiter Rat Rat}
      (before : Lingers b₀ n b now w wake)
      (whole : wake = b.fillTime w now)
      {gone : List Nat} (waited : w.id ∉ gone) {later wake' : Rat} (due : wake ≤ later)
      {w' : Waiter Rat Rat} {rest : List (Waiter Rat Rat)}
      (there : ((b.deserted gone).pass later).1.waiters = w' :: rest) (same : w'.id = w.id)
      (asked : (b.deserted gone).wake? later = some wake') :
      Lingers b₀ (n + 1) ((b.deserted gone).pass later).1 later w' wake'

def Advances (b : Bucket Rat Rat) (now : Rat) (w : Waiter Rat Rat) : Prop :=
  (∃ r ∈ (b.pass now).2, r.id = w.id ∧ r.grant.granted = true) ∨
    ∃ w' rest, (b.pass now).1.waiters = w' :: rest ∧ w'.id = w.id ∧ w.granted < w'.granted

structure Resting (b : Bucket Rat Rat) (now : Rat) (w : Waiter Rat Rat) : Prop where
  within : InBounds b
  numbered : b.Numbered
  refilled : b.lastRefill = now
  first : ∃ rest, b.waiters = w :: rest
  live : w.live = true
  unfilled : isFilled w = false

variable {b : Bucket Rat Rat} {now later : Rat} {w : Waiter Rat Rat}

theorem resting_pass (within : InBounds b) (numbered : b.Numbered)
    {rest : List (Waiter Rat Rat)} (there : (b.pass now).1.waiters = w :: rest) :
    Resting (b.pass now).1 now w := by
  have left : (serve b.terms now (b.volumeAt now) b.waiters).waiters = w :: rest := there
  obtain ⟨live, unfilled, -⟩ := serve_first left
  exact ⟨within.pass now, numbered.perform now .pass, rfl, ⟨rest, there⟩, live, unfilled⟩

theorem Resting.hangUp (resting : Resting b now w) {id : Nat} (other : w.id ≠ id) :
    Resting (b.hangUp id) now w := by
  obtain ⟨rest, line⟩ := resting.first
  refine ⟨resting.within.hangUp id, ?_, resting.refilled, ?_, resting.live, resting.unfilled⟩
  · rw [Numbered, hangUp_line]
    exact resting.numbered
  · refine ⟨rest.map fun w => if w.id = id then { w with live := false } else w, ?_⟩
    rw [Bucket.hangUp, line, List.map_cons, if_neg other]

theorem Resting.deserted (resting : Resting b now w) {gone : List Nat} (waited : w.id ∉ gone) :
    Resting (b.deserted gone) now w ∧ (b.deserted gone).terms = b.terms ∧
      (b.deserted gone).fillTime w now = b.fillTime w now := by
  induction gone generalizing b with
  | nil => exact ⟨resting, rfl, rfl⟩
  | cons id gone ih =>
    obtain ⟨other, waited⟩ := not_or.1 (mt List.mem_cons.2 waited)
    exact ih (resting.hangUp other) waited

/-- When the time that was asked for has come, the next step is there. -/
theorem Resting.step_le (resting : Resting b now w) (due : b.fillTime w now ≤ later) :
    min (step b.terms w) b.terms.capacity ≤ b.volumeAt later := by
  unfold fillTime at due
  have rate : 0 < b.terms.rate := resting.within.sound.rate
  have pause : 0 ≤ max (step b.terms w - b.volume) slack / b.terms.rate :=
    div_nonneg (slack_pos.le.trans (le_max_right _ _)) rate.le
  have reached : b.lastRefill ≤ later := by
    rw [resting.refilled]
    linarith
  have accrued : max (step b.terms w - b.volume) slack ≤ (later - now) * b.terms.rate := by
    rw [← div_le_iff₀ rate]
    linarith
  have enough : step b.terms w ≤ b.volume + (later - now) * b.terms.rate := by
    have missing := (le_max_left (step b.terms w - b.volume) slack).trans accrued
    linarith
  rw [volumeAt_eq b reached, resting.refilled]
  exact min_le_min_right _ enough

/-! ### What a wake-up gives -/

variable {terms : Terms Rat} {volume : Rat}

/-- Bit by bit, a step of more than the slack is given as soon as it is there. -/
theorem deliver_of_bits (bits : terms.partialGrants = true) (felt : slack < step terms w)
    (enough : step terms w ≤ volume) :
    (deliver terms volume w).1 = { w with granted := w.granted + step terms w } := by
  have delivered : atMost volume (step terms w) = step terms w := by
    rw [atMost_eq, min_eq_right enough]
  simp only [deliver, bits, if_true, delivered, felt]

/-- Where a step is more than the slack, the next step is given as soon as it is there. -/
theorem deliver_of_step_le (sound : terms.Sound) (fits : w.Fits terms)
    (unfilled : isFilled w = false) (enough : min (step terms w) terms.capacity ≤ volume)
    (able : terms.partialGrants = true → slack < terms.maxStep) :
    isFilled (deliver terms volume w).1 = true ∨
      (deliver terms volume w).1.granted = w.granted + terms.maxStep := by
  cases bits : terms.partialGrants with
  | true =>
    have outstanding : w.granted + slack < w.requested := by
      rw [isFilled, ← Bool.not_eq_true, covers_iff, not_le] at unfilled
      exact unfilled
    have next : step terms w = min (w.requested - w.granted) terms.maxStep := by
      simp only [step, bits, if_true, atMost_eq]
    have fitting : step terms w ≤ terms.capacity := by
      rw [next]
      exact (min_le_right _ _).trans sound.stepFits
    have felt : slack < step terms w := by
      rw [next]
      exact lt_min (by linarith) (able bits)
    rw [min_eq_left fitting] at enough
    rw [deliver_of_bits bits felt enough]
    rcases le_total (w.requested - w.granted) terms.maxStep with last | more
    · left
      apply isFilled_of_granted
      dsimp only
      rw [next, min_eq_left last]
      ring
    · right
      rw [next, min_eq_right more]
  | false =>
    obtain ⟨small, nothing⟩ := fits.whole bits
    obtain ⟨all, delivered⟩ := deliver_whole bits nothing volume
    have covered : w.requested ≤ volume + slack := by
      rw [all] at enough
      rcases min_le_iff.1 enough with there | full
      · exact there.trans (le_add_of_nonneg_right slack_pos.le)
      · linarith
    left
    rw [delivered, if_pos covered]
    exact isFilled_of_granted rfl

/-- Where a step is no more than the slack, nothing is ever given. -/
theorem deliver_of_maxStep_le (bits : terms.partialGrants = true) (small : terms.maxStep ≤ slack)
    (volume : Rat) (w : Waiter Rat Rat) : deliver terms volume w = (w, volume) := by
  have least : ¬ slack < atMost volume (step terms w) := by
    simp only [step, bits, if_true, atMost_eq, not_lt]
    exact (min_le_right _ _).trans ((min_le_right _ _).trans small)
  simp only [deliver, bits, if_true]
  rw [if_neg least]

section

variable (resting : Resting b now w) (due : b.fillTime w now ≤ later)

include resting due

/-- Where a step is more than the slack, the first in line is granted all it asked for or given a
whole step when the time that was asked for has come. -/
theorem Resting.given (able : b.terms.partialGrants = true → slack < b.terms.maxStep) :
    (∃ r ∈ (b.pass later).2, r.id = w.id ∧ r.grant.granted = true) ∨
      ∃ w' rest, (b.pass later).1.waiters = w' :: rest ∧ w'.id = w.id ∧
        w'.granted = w.granted + b.terms.maxStep := by
  obtain ⟨rest, line⟩ := resting.first
  have fits : w.Fits b.terms := resting.within.waiters w (line ▸ List.mem_cons_self)
  have enough := resting.step_le due
  obtain ⟨granted, left⟩ := pass_first line resting.live later
  cases filled : isFilled (deliver b.terms (b.volumeAt later) w).1 with
  | true => exact .inl (granted filled)
  | false =>
    have id := (deliver_ticket b.terms (b.volumeAt later) w).1
    have more := deliver_of_step_le resting.within.sound fits resting.unfilled enough able
    rw [filled] at more
    exact .inr ⟨_, rest, (left filled).2, id, more.resolve_left Bool.false_ne_true⟩

/-- The first in line gets something when the time that was asked for has come if and only if a step
is more than the slack. -/
theorem Resting.advances_iff : Advances b later w ↔
    (b.terms.partialGrants = true → slack < b.terms.maxStep) := by
  constructor
  · intro advances bits
    by_contra small
    obtain ⟨rest, line⟩ := resting.first
    obtain ⟨-, left⟩ := pass_first line resting.live later
    rw [deliver_of_maxStep_le bits (not_lt.1 small)] at left
    obtain ⟨nobody, still⟩ := left resting.unfilled
    rcases advances with ⟨r, sent, -⟩ | ⟨w', rest', there, -, more⟩
    · rw [nobody] at sent
      cases sent
    · rw [still] at there
      obtain ⟨rfl, -⟩ := List.cons.inj there
      exact lt_irrefl _ more
  · intro able
    refine (resting.given due able).imp_right ?_
    rintro ⟨w', rest, there, same, more⟩
    refine ⟨w', rest, there, same, ?_⟩
    rw [more]
    exact lt_add_of_pos_right _ resting.within.sound.step

end

/-! ### Runs of wake-ups -/

variable {b₀ : Bucket Rat Rat} {n : Nat} {wake : Rat}

theorem Lingers.resting (within : InBounds b₀) (numbered : b₀.Numbered)
    (lingers : Lingers b₀ n b now w wake) : Resting b now w ∧ b.terms = b₀.terms := by
  induction lingers with
  | first there => exact ⟨resting_pass within numbered there, rfl⟩
  | next before whole waited due there same asked ih =>
    obtain ⟨still, terms, -⟩ := ih.1.deserted waited
    exact ⟨resting_pass still.within still.numbered there, terms.trans ih.2⟩

/-- Every wake-up that leaves somebody first in line has given it a whole step. -/
theorem Lingers.granted (within : InBounds b₀) (numbered : b₀.Numbered)
    (able : b₀.terms.partialGrants = true → slack < b₀.terms.maxStep)
    (lingers : Lingers b₀ n b now w wake) : n * b₀.terms.maxStep ≤ w.granted := by
  induction lingers with
  | first there =>
    rw [Nat.cast_zero, zero_mul]
    exact ((within.pass _).waiters _ (there ▸ List.mem_cons_self)).nonneg
  | @next n b now wake w before whole gone waited later wake' due w' rest there same asked ih =>
    obtain ⟨resting, terms⟩ := before.resting within numbered
    obtain ⟨still, terms', time⟩ := resting.deserted waited
    rw [whole, ← time] at due
    rw [← terms, ← terms'] at able
    rcases still.given due able with ⟨r, sent, id, -⟩ | ⟨w'', rest', there', -, more⟩
    · -- who is granted all it asked for is not in line any more
      have ended : w.id ∈ ((b.deserted gone).perform later .pass).2.sent.map (·.id) :=
        List.mem_map.2 ⟨r, sent, id⟩
      have left : w.id ∉ ((b.deserted gone).pass later).1.line :=
        still.numbered.not_mem_line ended
      rw [line, there, List.map_cons, same] at left
      exact absurd List.mem_cons_self left
    · rw [there] at there'
      obtain ⟨rfl, -⟩ := List.cons.inj there'
      rw [more, terms', terms, Nat.cast_add, Nat.cast_one, add_mul, one_mul]
      exact add_le_add_left ih _

/-- Let somebody be first in line after a pass, and after any number of wake-ups that did not end
that. The next wake-up gives it something, however late it comes and whoever else hangs up, if and
only if requests are filled at one stroke or in steps of more than the slack. If they are, each of
the wake-ups so far has given it a whole step, so that there are no more of them than steps in what
it asked for. -/
theorem wakes_advance {settings : BucketSettings Rat} {start : Rat} {b₀ : Bucket Rat Rat}
    (created : create settings start = .ok b₀) (before : List (Rat × Action Rat)) {n : Nat}
    {wake : Rat} (lingers : Lingers (b₀.after before) n b now w wake) :
    let able := b₀.terms.partialGrants = true → slack < b₀.terms.maxStep
    (wake = b.fillTime w now → ∀ gone, w.id ∉ gone → ∀ later, wake ≤ later →
        (Advances (b.deserted gone) later w ↔ able)) ∧
      (able → n * b₀.terms.maxStep ≤ w.granted ∧ w.granted ≤ w.requested) := by
  intro able
  have within : InBounds (b₀.after before) := (inBounds_create created).after before
  have numbered : (b₀.after before).Numbered := (fresh_create created).numbered.after before
  have fixed : (b₀.after before).terms = b₀.terms := after_terms b₀ before
  obtain ⟨resting, terms⟩ := lingers.resting within numbered
  constructor
  · intro whole gone waited later due
    obtain ⟨still, terms', time⟩ := resting.deserted waited
    rw [whole, ← time] at due
    have advances := still.advances_iff due
    rw [terms', terms, fixed] at advances
    exact advances
  · intro enough
    obtain ⟨rest, line⟩ := resting.first
    have fits := resting.within.waiters w (line ▸ List.mem_cons_self)
    have given := lingers.granted within numbered (by rwa [fixed])
    rw [fixed] at given
    exact ⟨given, fits.fair⟩

deriving instance DecidableEq for Waiter

/-- The first of two asks for five units and is given two at a time. After it has been woken for
twice, it has all but one, and the other one has hung up. -/
theorem wakes_advance_twice :
    let b₀ : Bucket Rat Rat := ⟨⟨10, 2, true, none, 2⟩, 0, 0, [], 0, false, .absent, false⟩
    let before : List (Rat × Action Rat) := [(0, .request 5), (0, .request 3)]
    let w (granted : Rat) : Waiter Rat Rat := ⟨0, 5, granted, 0, true⟩
    let b : Bucket Rat Rat := ((((b₀.after before).pass 0).1.pass 1).1.pass 2).1
    create ⟨⟨"2/s", 2⟩, 10, none, some 2, some 0, true⟩ 0 = .ok b₀ ∧
      Lingers (b₀.after before) 2 b 2 (w 4) (5 / 2) ∧ 2 * 2 ≤ (w 4).granted ∧
      Advances (b.deserted [1]) 3 (w 4) := by
  intro b₀ before w b
  have created : create ⟨⟨"2/s", 2⟩, 10, none, some 2, some 0, true⟩ 0 = .ok b₀ := rfl
  let other : Waiter Rat Rat := ⟨1, 3, 0, 0, true⟩
  let b' := ((b₀.after before).pass 0).1
  have line : b'.waiters = [w 0, other] := by decide +kernel
  have line' : (b'.pass 1).1.waiters = [w 2, other] := by decide +kernel
  have line'' : b.waiters = [w 4, other] := by decide +kernel
  have nobody : 0 ∉ ([] : List Nat) := List.not_mem_nil
  have stays : Lingers (b₀.after before) 0 b' 0 (w 0) 1 := .first line (by decide +kernel)
  have stays' : Lingers (b₀.after before) 1 (b'.pass 1).1 1 (w 2) 2 :=
    .next stays (by decide +kernel) nobody le_rfl line' rfl (by decide +kernel)
  have stays'' : Lingers (b₀.after before) 2 b 2 (w 4) (5 / 2) :=
    .next stays' (by decide +kernel) nobody le_rfl line'' rfl (by decide +kernel)
  obtain ⟨advances, given⟩ := wakes_advance created before stays''
  have able : b₀.terms.partialGrants = true → slack < b₀.terms.maxStep := by decide +kernel
  have woken := advances (by decide +kernel) [1] (by decide) 3 (by decide +kernel)
  exact ⟨created, stays'', (given able).1, woken.2 able⟩

/-- Units are given in steps of half the slack. However much there is in the bucket, whoever is in
line for more than the slack gets none of it. -/
theorem wake_without_effect :
    let b₀ : Bucket Rat Rat :=
      ⟨⟨1, 1, true, none, 1 / 2000000000⟩, 0, 0, [], 0, false, .absent, false⟩
    let b := b₀.after [(0, .request (7 / 5000000000))]
    let w : Waiter Rat Rat := ⟨0, 7 / 5000000000, 0, 0, true⟩
    create ⟨⟨"1/s", 1⟩, 1, none, some (1 / 2000000000), some 0, true⟩ 0 = .ok b₀ ∧
      Lingers b 0 (b.pass 0).1 0 w slack ∧ slack = (b.pass 0).1.fillTime w 0 ∧
      ¬ Advances (b.pass 0).1 1 w := by
  intro b₀ b w
  have created : create ⟨⟨"1/s", 1⟩, 1, none, some (1 / 2000000000), some 0, true⟩ 0 =
      .ok b₀ := by
    have fits : ¬ (1 : Rat) < 2000000000⁻¹ := by norm_num
    simp [create, BucketSettings.terms, isFinite, fits, b₀]
  have line : (b.pass 0).1.waiters = [w] := by decide +kernel
  have still : ((b.pass 0).1.pass 1).1.waiters = [w] := by decide +kernel
  have nobody : ((b.pass 0).1.pass 1).2.map (·.id) = [] := by decide +kernel
  refine ⟨created, .first line (by decide +kernel), by decide +kernel, ?_⟩
  rintro (⟨r, sent, -⟩ | ⟨w', rest, there, -, more⟩)
  · rw [List.map_eq_nil_iff.1 nobody] at sent
    cases sent
  · rw [still] at there
    cases there
    exact lt_irrefl _ more

end Turnstile.Metering.Bucket
