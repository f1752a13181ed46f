import Mathlib
import Turnstile.Proofs.Metering.Attendance
import Turnstile.Proofs.Metering.Refilling
import Turnstile.Proofs.Metering.Rush

/-!
# Everybody is granted on time

When requests that are filled at one stroke come to a bucket all at once, everybody is granted what
they ask for, in the order in which they came, at a time that is known up to the slack
(`granted_on_time`).

`Keeps` is what every step keeps. Until all requests are made the time is that of the first one;
from then on a pass comes as soon as there is enough for the first in line, or earlier. Nobody asks
for more than fits, so nothing is cut off on the way and the books hold (`Keeps.pass`). There is an
end to it because every sleep takes some time and none goes past the time when there is enough for
everybody (`Keeps.wake_le`).
-/

namespace Turnstile.Metering.Rush

open Bucket Quantity

variable {first s s' : Rush}

structure Keeps (first s : Rush) : Prop where
  terms : s.bucket.terms = first.bucket.terms
  opened : s.bucket.closed = false
  refilled : s.bucket.lastRefill ≤ s.now
  gathered : s.now = first.now ∨ s.coming = []
  asked : s.asked.map (·.2) ++ s.coming = first.coming
  served : s.granted.map (fun a => (a.number, a.amount)) ++
    s.bucket.waiters.map (fun w => (some w.id, w.requested)) = s.asked
  pending : ∀ w ∈ s.bucket.waiters, Pending first.bucket.terms w
  books : Books first s.granted s.now (s.bucket.volumeAt s.now)
  absent : s.bucket.servicer = .absent → s.bucket.waiters = []
  ready : s.bucket.servicer = .ready → s.now = first.now
  asleep : ∀ wake, s.bucket.servicer = .asleep wake → s.bucket.permit = false ∧
    ∃ w ∈ s.bucket.waiters.head?,
      Dozes first.bucket.terms (s.bucket.volumeAt s.now) s.now wake w

section

variable (keeps : Keeps first s) {amount : Rat} {coming : List Rat}
  (next : s.coming = amount :: coming)

include keeps next

theorem Keeps.atOnce : s.now = first.now := by
  apply keeps.gathered.resolve_right
  rw [next]
  exact List.cons_ne_nil _ _

theorem Keeps.asked_next (number : Option Nat) :
    (s.asked ++ [(number, amount)]).map (·.2) ++ coming = first.coming := by
  rw [← keeps.asked, next, List.map_append, List.append_assoc]
  rfl

theorem Keeps.grant (nonneg : 0 ≤ amount) (empty : s.bucket.waiters = [])
    (covered : amount ≤ s.bucket.volumeAt s.now + slack) :
    Keeps first { s with
      bucket := { s.bucket.refill s.now with
        volume := debited (s.bucket.volumeAt s.now) amount }
      coming
      asked := s.asked ++ [(none, amount)]
      granted := s.granted ++ [⟨none, amount, s.now⟩] } := by
  have atOnce := keeps.atOnce next
  have paid := keeps.books.grant (a := ⟨none, amount, s.now⟩) rfl nonneg covered (.inl atOnce)
  let left : Bucket Rat Rat :=
    { s.bucket.refill s.now with volume := debited (s.bucket.volumeAt s.now) amount }
  have level : left.volumeAt s.now = debited (s.bucket.volumeAt s.now) amount :=
    volumeAt_of_level rfl (keeps.terms.symm ▸ paid.holds.fits)
  have served := keeps.served
  have asleep := keeps.asleep
  rw [empty] at served asleep
  constructor
  case terms => exact keeps.terms
  case opened => exact keeps.opened
  case refilled => exact le_rfl
  case gathered => exact .inl atOnce
  case asked => exact keeps.asked_next next none
  case served =>
    dsimp only [refill]
    rw [empty, ← served]
    simp
  case pending => exact keeps.pending
  case books => exact level.symm ▸ paid
  case absent => exact keeps.absent
  case ready => exact keeps.ready
  case asleep =>
    intro wake sleeps
    obtain ⟨-, w, there, -⟩ := asleep wake sleeps
    cases there

theorem Keeps.enqueue (nonneg : 0 ≤ amount) (fits : amount ≤ first.bucket.terms.capacity) :
    Keeps first { s with
      bucket := (s.bucket.refill s.now).enqueue amount s.now
      coming
      asked := s.asked ++ [(some s.bucket.nextId, amount)] } := by
  have level : ((s.bucket.refill s.now).enqueue amount s.now).volumeAt s.now =
      s.bucket.volumeAt s.now := volumeAt_of_level rfl (volumeAt_le _ _)
  constructor
  case terms => exact keeps.terms
  case opened => exact keeps.opened
  case refilled => exact le_rfl
  case gathered => exact .inl (keeps.atOnce next)
  case asked => exact keeps.asked_next next _
  case served =>
    dsimp only [Bucket.enqueue, refill]
    rw [List.map_append, ← List.append_assoc, keeps.served]
    rfl
  case pending =>
    intro w mem
    rcases List.mem_append.1 mem with mem | last
    · exact keeps.pending w mem
    · obtain rfl := List.mem_singleton.1 last
      exact ⟨rfl, rfl, nonneg, fits⟩
  case books =>
    dsimp only
    rw [level]
    exact keeps.books
  case absent =>
    intro none
    dsimp only [Bucket.enqueue, refill] at none
    split at none
    · cases none
    · next present => exact absurd none present
  case ready => exact fun _ => keeps.atOnce next
  case asleep =>
    intro wake sleeps
    have slept : s.bucket.servicer = .asleep wake := by
      dsimp only [Bucket.enqueue, refill] at sleeps
      split at sleeps
      · cases sleeps
      · exact sleeps
    obtain ⟨calm, w, there, dozes⟩ := keeps.asleep wake slept
    refine ⟨calm, w, ?_, ?_⟩
    · dsimp only [Bucket.enqueue, refill]
      rw [List.head?_append, there]
      rfl
    · dsimp only
      rwa [level]

end

theorem Keeps.ask (fillable : first.Fillable) (keeps : Keeps first s) : Keeps first s.ask := by
  unfold Rush.ask
  cases next : s.coming with
  | nil => exact keeps
  | cons amount coming =>
    obtain ⟨nonneg, fits⟩ : 0 ≤ amount ∧ amount ≤ first.bucket.terms.capacity := by
      apply fillable.amounts
      rw [← keeps.asked, next]
      exact List.mem_append_right _ List.mem_cons_self
    have requested := s.bucket.requested amount s.now
    dsimp only
    generalize s.bucket.request amount s.now = outcome at requested ⊢
    cases requested with
    | refused no =>
      have opened : ¬ s.bucket.closed = true := by simp [keeps.opened]
      have invalid := no.resolve_left opened
      rw [(isValid_iff amount).2 nonneg] at invalid
      cases invalid
    | hopeless _ _ no =>
      have small : ¬ s.bucket.terms.capacity + slack < amount := by
        rw [keeps.terms]
        linarith [slack_pos]
      rcases no with large | full
      · simp [exceeds, small] at large
      · simp [isFull, keeps.terms, fillable.unlimited] at full
    | granted _ _ empty covered =>
      exact keeps.grant next nonneg empty ((covers_iff _ _).1 covered)
    | queued => exact keeps.enqueue next nonneg fits

/-- A pass that comes no later than there is enough for the first in line. -/
theorem Keeps.pass (fillable : first.Fillable) (keeps : Keeps first s) {later : Rat}
    (forth : s.now ≤ later)
    (room : s.bucket.volumeAt s.now + (later - s.now) * first.bucket.terms.rate ≤
      first.bucket.terms.capacity)
    (due : ∀ w ∈ s.bucket.waiters.head?,
      later = first.now ∨ first.supply later ≤ total s.granted + w.requested)
    (gathered : later = first.now ∨ s.coming = [])
    (called : s.bucket.permit = true → later = first.now) : Keeps first (s.pass later) := by
  have terms := keeps.terms
  have sound := fillable.sound
  have flowed : s.bucket.volumeAt later =
      s.bucket.volumeAt s.now + (later - s.now) * first.bucket.terms.rate := by
    rw [volumeAt_later (terms ▸ sound.rate.le) keeps.refilled forth, terms]
    exact min_eq_left room
  have books := keeps.books.later forth sound.rate.le room
  have pending := keeps.pending
  rw [← flowed] at books
  rw [← terms] at pending sound
  obtain ⟨⟨front, line, fills, awarded⟩, next⟩ :=
    pass_fills sound (terms ▸ fillable.whole) later books.holds.nonneg pending
  rw [line] at pending due
  have paid : Books first (s.pass later).granted later (s.bucket.pass later).1.volume := by
    have nonneg : ∀ w ∈ front, 0 ≤ w.requested := fun w mem =>
      (pending w (List.mem_append_left _ mem)).nonneg
    have first : ∀ w ∈ front.head?, w ∈ (front ++ (s.bucket.pass later).1.waiters).head? := by
      intro w there
      rw [List.head?_append, there]
      rfl
    rw [Rush.pass, awarded]
    exact books.fills fills nonneg fun w there => due w (first w there)
  have level : (s.bucket.pass later).1.volumeAt later = (s.bucket.pass later).1.volume :=
    volumeAt_of_level rfl (terms.symm ▸ paid.holds.fits)
  have served := keeps.served
  rw [line, List.map_append, ← List.append_assoc] at served
  constructor
  case terms => exact terms
  case opened => exact keeps.opened
  case refilled => exact le_rfl
  case gathered => exact gathered
  case asked => exact keeps.asked
  case served =>
    rw [Rush.pass, awarded, List.map_append, List.map_map]
    exact served
  case pending => exact fun w mem => terms ▸ pending w (List.mem_append_right _ mem)
  case books => exact level.symm ▸ paid
  case absent =>
    intro none
    rcases next with ⟨-, empty⟩ | ⟨ready, -⟩ | ⟨wake, w, -, asleep, -⟩
    · exact empty
    · cases none.symm.trans ready
    · cases none.symm.trans asleep
  case ready =>
    intro again
    rcases next with ⟨absent, -⟩ | ⟨-, permit⟩ | ⟨wake, w, -, asleep, -⟩
    · cases again.symm.trans absent
    · exact called permit
    · cases again.symm.trans asleep
  case asleep =>
    intro wake sleeps
    rcases next with ⟨absent, -⟩ | ⟨ready, -⟩ | ⟨wake', w, there, asleep, calm, dozes⟩
    · cases sleeps.symm.trans absent
    · cases sleeps.symm.trans ready
    · cases sleeps.symm.trans asleep
      refine ⟨calm, w, there, ?_⟩
      rw [terms, ← level] at dozes
      exact dozes

theorem Keeps.step (fillable : first.Fillable) (keeps : Keeps first s) (step : Step s s') :
    Keeps first s' := by
  cases step with
  | ask => exact keeps.ask fillable
  | pass ready =>
    have atOnce := keeps.ready ready
    apply keeps.pass fillable le_rfl
    · rw [sub_self, zero_mul, add_zero]
      exact keeps.books.holds.fits
    · exact fun _ _ => .inl atOnce
    · exact .inl atOnce
    · exact fun _ => atOnce
  | @wake all wake asleep =>
    obtain ⟨calm, w, there, dozes⟩ := keeps.asleep wake asleep
    have waiting := keeps.pending w (List.mem_of_mem_head? there)
    apply keeps.pass fillable
    · linarith [nap_pos fillable.sound, dozes.least]
    · linarith [dozes.most, waiting.fits]
    · intro w' there'
      obtain rfl := Option.mem_unique there there'
      right
      rw [supply_later first s.now]
      linarith [dozes.most, keeps.books.least]
    · exact .inr all
    · intro called
      rw [calm] at called
      cases called

/-- When there is enough for all requests together. -/
def finish (first : Rush) : Rat :=
  first.now + (first.coming.sum - first.bucket.volumeAt first.now) / first.bucket.terms.rate

/-- How many passes a servicer makes without going to sleep, at most. -/
def urgency : Servicer Rat × Bool → Nat
  | (.ready, true) => 2
  | (.ready, false) => 1
  | (.absent, _) | (.asleep _, _) => 0

theorem urgency_le (state : Servicer Rat × Bool) : urgency state ≤ 2 := by
  unfold urgency
  split <;> decide

theorem urgency_pass (b : Bucket Rat Rat) (now : Rat) :
    urgency ((b.pass now).1.servicer, (b.pass now).1.permit) ≤ b.permit.toNat := by
  change urgency (afterPass b.permit (serve b.terms now (b.volumeAt now) b.waiters).wake) ≤ _
  generalize (serve b.terms now (b.volumeAt now) b.waiters).wake = wake
  cases wake with
  | none => exact Nat.zero_le _
  | some wake => cases b.permit <;> exact le_rfl

/-- A bound on the steps that are left. -/
def remaining (first s : Rush) : Nat :=
  3 * s.coming.length + urgency (s.bucket.servicer, s.bucket.permit) +
    ⌊(first.finish - s.now) / nap first.bucket.terms⌋₊

/-- All that is asked for, in order: what was granted, what is waited for and what is to come. -/
theorem Keeps.amounts (keeps : Keeps first s) :
    s.granted.map (·.amount) ++ s.bucket.waiters.map (·.requested) ++ s.coming = first.coming := by
  rw [← keeps.asked, ← keeps.served, List.map_append, List.map_map, List.map_map]
  rfl

/-- Nobody sleeps past the time when there is enough for everybody. -/
theorem Keeps.wake_le (fillable : first.Fillable) (keeps : Keeps first s) (all : s.coming = [])
    {wake : Rat} (asleep : s.bucket.servicer = .asleep wake) :
    s.now + nap first.bucket.terms ≤ wake ∧ wake ≤ first.finish := by
  obtain ⟨-, w, there, dozes⟩ := keeps.asleep wake asleep
  refine ⟨dozes.least, ?_⟩
  have one : w.requested ≤ (s.bucket.waiters.map (·.requested)).sum := by
    apply List.single_le_sum
    · intro x mem
      obtain ⟨w, waiting, rfl⟩ := List.mem_map.1 mem
      exact (keeps.pending w waiting).nonneg
    · exact List.mem_map_of_mem (List.mem_of_mem_head? there)
  have everybody : first.coming.sum =
      total s.granted + (s.bucket.waiters.map (·.requested)).sum := by
    rw [← keeps.amounts, all, List.append_nil, List.sum_append]
    rfl
  have enough : (wake - first.now) * first.bucket.terms.rate ≤
      first.coming.sum - first.bucket.volumeAt first.now := by
    have least := keeps.books.least
    have most := dozes.most
    unfold supply at least
    linarith
  rw [← le_div_iff₀ fillable.sound.rate] at enough
  unfold finish
  linarith

theorem ask_coming (s : Rush) : s.ask.coming = s.coming.tail ∧ s.ask.now = s.now := by
  unfold Rush.ask
  split
  · next none => exact ⟨by rw [none]; rfl, rfl⟩
  · next some => split <;> exact ⟨by rw [some]; rfl, rfl⟩

theorem Keeps.remaining_step (fillable : first.Fillable) (keeps : Keeps first s)
    (step : Step s s') : remaining first s' + 1 ≤ remaining first s := by
  unfold remaining
  cases step with
  | ask more =>
    obtain ⟨coming, now⟩ := s.ask_coming
    have fewer := List.length_pos_iff.2 more
    have urgent := urgency_le (s.ask.bucket.servicer, s.ask.bucket.permit)
    rw [coming, now, List.length_tail]
    omega
  | pass ready =>
    have calmer := urgency_pass s.bucket s.now
    have urgent : urgency (.ready, s.bucket.permit) = s.bucket.permit.toNat + 1 := by
      cases s.bucket.permit <;> rfl
    rw [ready, urgent]
    dsimp only [Rush.pass]
    omega
  | @wake all wake asleep =>
    obtain ⟨calm, -⟩ := keeps.asleep wake asleep
    obtain ⟨least, most⟩ := keeps.wake_le fillable all asleep
    have calmer : urgency ((s.bucket.pass wake).1.servicer, (s.bucket.pass wake).1.permit) ≤ 0 := by
      have calmer := urgency_pass s.bucket wake
      rwa [calm] at calmer
    have positive := nap_pos fillable.sound
    have sooner : ⌊(first.finish - wake) / nap first.bucket.terms⌋₊ + 1 ≤
        ⌊(first.finish - s.now) / nap first.bucket.terms⌋₊ := by
      rw [← Nat.floor_add_one (div_nonneg (sub_nonneg.2 most) positive.le)]
      apply Nat.floor_le_floor
      rw [div_add_one positive.ne']
      exact div_le_div_of_nonneg_right (by linarith) positive.le
    dsimp only [Rush.pass]
    omega

theorem Keeps.run (fillable : first.Fillable) (keeps : Keeps first first) {n : Nat}
    (run : Reaches first n s) : Keeps first s ∧ n + remaining first s ≤ remaining first first := by
  induction run with
  | start => exact ⟨keeps, by omega⟩
  | next before step ih =>
    have fewer := ih.1.remaining_step fillable step
    exact ⟨ih.1.step fillable step, by omega⟩

/-- When nothing can happen any more, everybody has been granted what they asked for. -/
theorem Keeps.complete (keeps : Keeps first s) (stuck : ∀ s', ¬ Step s s') :
    s.granted.map (fun a => (a.number, a.amount)) = s.asked ∧
      s.asked.map (·.2) = first.coming := by
  have all : s.coming = [] := by
    by_contra more
    exact stuck _ (.ask more)
  have empty : s.bucket.waiters = [] := by
    apply keeps.absent
    cases state : s.bucket.servicer with
    | absent => rfl
    | ready => exact absurd (.pass state) (stuck _)
    | asleep wake => exact absurd (.wake all state) (stuck _)
  have served := keeps.served
  have asked := keeps.asked
  rw [empty, List.map_nil, List.append_nil] at served
  rw [all, List.append_nil] at asked
  exact ⟨served, asked⟩

/-- The books before the first request. -/
theorem keeps_first (opened : first.bucket.closed = false)
    (empty : first.bucket.waiters = []) (reached : first.bucket.lastRefill ≤ first.now)
    (holds : first.bucket.terms.Holds (first.bucket.volumeAt first.now))
    (awake : ∀ wake, first.bucket.servicer ≠ .asleep wake) (asked : first.asked = [])
    (granted : first.granted = []) : Keeps first first where
  terms := rfl
  opened := opened
  refilled := reached
  gathered := .inl rfl
  asked := by rw [asked]; rfl
  served := by rw [granted, empty, asked]; rfl
  pending := by
    rw [empty]
    exact fun w mem => absurd mem List.not_mem_nil
  books := by
    have supplied : first.supply first.now = first.bucket.volumeAt first.now := by
      unfold supply
      ring
    rw [granted]
    refine ⟨le_rfl, holds, ?_, ?_, .nil, .nil, fun a mem => absurd mem List.not_mem_nil⟩
    · simp [supplied, total]
    · simp [supplied, total]
  absent _ := empty
  ready _ := rfl
  asleep wake sleeps := absurd sleeps (awake wake)

/-- Let requests that are filled at one stroke come to an open bucket at one moment, when nobody is
in line, and let its servicer make every pass when it is due. Everybody is granted what they asked
for, in the order in which they came and within a number of steps that is known beforehand, at the
time when there is enough for them and everybody before them, or earlier by the slack of each of
them. -/
theorem granted_on_time {settings : BucketSettings Rat} {made : Rat} {b₀ : Bucket Rat Rat}
    (created : Bucket.create settings made = .ok b₀) (before : List (Rat × Action Rat))
    (whole : b₀.terms.partialGrants = false) (unlimited : b₀.terms.maxWaiters = none)
    (opened : (b₀.after before).closed = false) (empty : (b₀.after before).waiters = [])
    {start : Rat} (reached : (b₀.after before).lastRefill ≤ start) {amounts : List Rat}
    (fit : ∀ amount ∈ amounts, 0 ≤ amount ∧ amount ≤ b₀.terms.capacity) {n : Nat} {s : Rush}
    (run : Reaches { bucket := b₀.after before, now := start, coming := amounts } n s) :
    let rate := b₀.terms.rate
    let volume := (b₀.after before).volumeAt start
    let awarded := s.granted.map fun a => (a.number, a.amount)
    (awarded <+: s.asked ∧ s.asked.map (·.2) <+: amounts) ∧
      s.granted.Pairwise (·.time ≤ ·.time) ∧
      (∀ k a, s.granted[k]? = some a →
        let due := (amounts.take (k + 1)).sum - volume
        max 0 ((due - (k + 1) * slack) / rate) ≤ a.time - start ∧
          a.time - start ≤ max 0 (due / rate)) ∧
      n ≤ 3 * amounts.length + 2 + ⌊(amounts.sum - volume) / rate / nap b₀.terms⌋₊ ∧
      ((∀ s', ¬ Step s s') → awarded = s.asked ∧ s.asked.map (·.2) = amounts) := by
  intro rate volume awarded
  let first : Rush := { bucket := b₀.after before, now := start, coming := amounts }
  have within : InBounds (b₀.after before) := (inBounds_create created).after before
  have terms : (b₀.after before).terms = b₀.terms := after_terms b₀ before
  have rate_eq : first.bucket.terms.rate = rate := congrArg Terms.rate terms
  have fillable : first.Fillable :=
    ⟨within.sound, terms ▸ whole, terms ▸ unlimited, terms ▸ fit⟩
  have awake : ∀ wake, (b₀.after before).servicer ≠ .asleep wake := by
    intro wake asleep
    obtain ⟨_, attended⟩ := (Crew.attended_of_fresh (fresh_create created)).after before
    obtain ⟨-, -, w, rest, -, line, -⟩ := attended.asleep wake asleep
    rw [empty] at line
    cases line
  have keeps₀ : Keeps first first :=
    keeps_first opened empty reached (within.volumeAt start) awake rfl rfl
  obtain ⟨keeps, steps⟩ := keeps₀.run fillable run
  have handed : s.granted.map (·.amount) <+: amounts :=
    ⟨_, (List.append_assoc _ _ _).symm.trans keeps.amounts⟩
  refine ⟨⟨⟨_, keeps.served⟩, ⟨_, keeps.asked⟩⟩, keeps.books.ordered, ?_, ?_, keeps.complete⟩
  · intro k a there
    have placed : k + 1 ≤ (s.granted.map (·.amount)).length := by
      rw [List.length_map]
      exact (List.getElem?_eq_some_iff.1 there).1
    have same : amounts.take (k + 1) = (s.granted.map (·.amount)).take (k + 1) := by
      obtain ⟨rest, whole⟩ := handed
      rw [← whole, List.take_append_of_le_length placed]
    have onTime := keeps.books.onTime.get fillable.sound.rate there
    rw [← same, rate_eq] at onTime
    exact onTime
  · have bound : remaining first first ≤
        3 * amounts.length + 2 + ⌊(amounts.sum - volume) / rate / nap b₀.terms⌋₊ := by
      have urgent := urgency_le (first.bucket.servicer, first.bucket.permit)
      have pause : (first.finish - first.now) / nap first.bucket.terms =
          (amounts.sum - volume) / rate / nap b₀.terms := by
        rw [finish, add_sub_cancel_left, rate_eq]
        exact congrArg (fun t => (amounts.sum - volume) / rate / nap t) terms
      unfold remaining
      rw [pause]
      change 3 * amounts.length + _ + _ ≤ _
      omega
    omega

/-- The second of five is granted on credit of the slack, and the third gains by it. The last two
get in line while the servicer sleeps. -/
theorem granted_on_time_slack :
    let b₀ : Bucket Rat Rat := ⟨⟨10, 2, false, none, 10⟩, 10, 0, [], 0, false, .absent, false⟩
    let before : List (Rat × Action Rat) := [(0, .takeNow 5)]
    let first : Rush :=
      { bucket := b₀.after before, now := 1, coming := [3, 4 + 1 / 2000000000, 6, 0, 9] }
    let asking := first.ask.ask.ask
    let waiting := (asking.pass asking.now).ask.ask
    let s := (waiting.pass 4).pass (17 / 2)
    let due : Rat := 3 + (4 + 1 / 2000000000) + 6 - 7
    Bucket.create ⟨⟨"2/s", 2⟩, 10, none, none, none, false⟩ 0 = .ok b₀ ∧ Reaches first 8 s ∧
      s.granted = [⟨none, 3, 1⟩, ⟨none, 4 + 1 / 2000000000, 1⟩, ⟨some 0, 6, 4⟩, ⟨some 1, 0, 4⟩,
        ⟨some 2, 9, 17 / 2⟩] ∧
      (max 0 ((due - (2 + 1) * slack) / 2) ≤ 4 - 1 ∧ 4 - 1 ≤ max 0 (due / 2)) ∧
      s.asked.map (·.2) = first.coming := by
  intro b₀ before first asking waiting s due
  have created : Bucket.create ⟨⟨"2/s", 2⟩, 10, none, none, none, false⟩ 0 = .ok b₀ := rfl
  have asked : Reaches first 3 asking :=
    .next (.next (.next .start (.ask (by decide +kernel))) (.ask (by decide +kernel)))
      (.ask (by decide +kernel))
  have waits : Reaches first 6 waiting :=
    .next (.next (.next asked (.pass (by decide +kernel))) (.ask (by decide +kernel)))
      (.ask (by decide +kernel))
  have run : Reaches first 8 s :=
    .next (.next waits (.wake (by decide +kernel) (by decide +kernel)))
      (.wake (by decide +kernel) (by decide +kernel))
  have granted : s.granted = [⟨none, 3, 1⟩, ⟨none, 4 + 1 / 2000000000, 1⟩, ⟨some 0, 6, 4⟩,
      ⟨some 1, 0, 4⟩, ⟨some 2, 9, 17 / 2⟩] := by decide +kernel
  have done : s.bucket.servicer = .absent := by decide +kernel
  have all : s.coming = [] := by decide +kernel
  have stuck : ∀ s', ¬ Step s s' := by
    rintro s' (more | ready | ⟨-, asleep⟩)
    · exact more all
    · cases done.symm.trans ready
    · cases done.symm.trans asleep
  obtain ⟨-, -, times, -, complete⟩ := granted_on_time created before rfl rfl (by decide +kernel)
    (by decide +kernel) (by decide +kernel) (by decide +kernel) run
  have third := times 2 ⟨some 0, 6, 4⟩ (by rw [granted]; rfl)
  have sum : (first.coming.take 3).sum - first.bucket.volumeAt 1 = due := by decide +kernel
  change max 0 (((first.coming.take 3).sum - first.bucket.volumeAt 1 - _) / 2) ≤ 4 - 1 ∧
    4 - 1 ≤ max 0 (((first.coming.take 3).sum - first.bucket.volumeAt 1) / 2) at third
  rw [sum, Nat.cast_ofNat] at third
  exact ⟨created, run, granted, third, (complete stuck).2⟩

end Turnstile.Metering.Rush
