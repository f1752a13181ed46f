import Mathlib
import Turnstile.Proofs.Metering.Line
import Turnstile.Proofs.Metering.Sums

/-!
# Every request ends once

A request is answered at once, or it gets in line and is sent one outcome, unless it is given up
before. Who was told to wait and is no longer in line has been told how it ended, so nobody who
still asks is left without an answer (`ends_once`).

A shutdown denies all who are in line. From then on what an action reports depends on the action
alone (`Shut.reports`): requests are refused, and a pass or another shutdown finds nobody. Another
shutdown adds nothing to the volume, and adding nothing does not change a volume to which something
has been added since it was first set (`Shut.denyAll_volume`).
-/

namespace Turnstile.Metering.Bucket

open Quantity

variable {τ α : Type}

/-! ### How requests end -/

theorem Report.eq_of_joined {r : Report τ α} {id : Nat} (joined : id ∈ r.joined) :
    r = .answered (.queued id) := by
  cases r with
  | taken | resolved | silent => cases joined
  | answered reply =>
    cases reply with
    | settled => cases joined
    | queued own => rw [List.mem_singleton.1 joined]

inductive Ending where
  | grantedAtOnce
  | deniedAtOnce
  | grantedInLine
  | deniedInLine
deriving DecidableEq, Repr

def Ending.ofAnswer (grant : Grant τ α) : Ending :=
  if grant.granted then .grantedAtOnce else .deniedAtOnce

def Ending.ofSent (r : Resolution τ α) : Ending :=
  if r.grant.granted then .grantedInLine else .deniedInLine

/-- All that the one who made a request is told in the end. -/
def endings (log : List (Report τ α)) : Reply τ α → List Ending
  | .settled grant => [Ending.ofAnswer grant]
  | .queued id => ((log.flatMap Report.sent).filter (·.id == id)).map Ending.ofSent

theorem length_endings (log : List (Report τ α)) (id : Nat) :
    (endings log (.queued id)).length = ((log.flatMap Report.sent).map (·.id)).count id := by
  rw [endings, List.length_map, List.count, List.countP_map, List.countP_eq_length_filter]
  rfl

def Holds (b : Bucket τ α) : Reply τ α → Prop
  | .settled _ => False
  | .queued id => id ∈ b.line

def Action.givesUp (id : Nat) : Action α → Bool
  | .hangUp gone | .withdraw gone => gone == id
  | .takeNow _ | .request _ | .pass | .denyAll => false

/-- Nobody gives the request up. -/
def Kept (steps : List (τ × Action α)) : Reply τ α → Prop
  | .settled _ => True
  | .queued id => ∀ s ∈ steps, s.2.givesUp id = false

/-! ### Nobody is forgotten -/

def Waits (b : Bucket τ α) (id : Nat) : Prop := ∃ w ∈ b.waiters, w.id = id ∧ w.live = true

theorem Waits.hangUp {b : Bucket τ α} {id gone : Nat} (waits : b.Waits id) (other : gone ≠ id) :
    (b.hangUp gone).Waits id := by
  obtain ⟨w, mem, rfl, live⟩ := waits
  have kept : (if w.id = gone then { w with live := false } else w) = w := if_neg (Ne.symm other)
  exact ⟨w, List.mem_map.2 ⟨w, mem, kept⟩, rfl, live⟩

theorem Waits.mem_line {b : Bucket τ α} {id : Nat} (waits : b.Waits id) : id ∈ b.line := by
  obtain ⟨w, mem, rfl, -⟩ := waits
  exact List.mem_map_of_mem mem

variable [Quantity α] [Clock τ α]

/-- Who waits is answered or waits on, unless it gives up. -/
theorem Waits.perform {b : Bucket τ α} {id : Nat} (waits : b.Waits id) (now : τ) {a : Action α}
    (kept : a.givesUp id = false) :
    id ∈ (b.perform now a).2.sent.map (·.id) ∨ (b.perform now a).1.Waits id := by
  have performed := b.performed now a
  generalize b.perform now a = outcome at performed ⊢
  cases performed with
  | takeNow took => cases took <;> exact .inr waits
  | request requested =>
    cases requested with
    | refused | granted | hopeless => exact .inr waits
    | queued =>
      obtain ⟨w, mem, same, live⟩ := waits
      exact .inr ⟨w, List.mem_append_left _ mem, same, live⟩
  | hangUp gone => exact .inr (waits.hangUp (by simpa [Action.givesUp] using kept))
  | @withdraw gone _ withdrew =>
    obtain ⟨w, mem, rfl, live⟩ := waits
    have other : gone ≠ w.id := by simpa [Action.givesUp] using kept
    refine .inr ⟨w, ?_, rfl, live⟩
    rw [withdrew.waiters]
    exact (List.mem_eraseP_of_neg (p := (·.id == gone)) (by simpa using other.symm)).2 mem
  | pass =>
    obtain ⟨w, mem, rfl, live⟩ := waits
    exact serve_keeps b.terms now (b.volumeAt now) b.waiters w mem live
  | denyAll =>
    obtain ⟨w, mem, rfl, -⟩ := waits
    exact .inl (List.mem_map.2 ⟨_, List.mem_map_of_mem mem, rfl⟩)

theorem waits_of_joined {b : Bucket τ α} {now : τ} {a : Action α} {id : Nat}
    (joined : id ∈ (b.perform now a).2.joined) : (b.perform now a).1.Waits id := by
  have performed := b.performed now a
  generalize b.perform now a = outcome at performed joined ⊢
  cases performed with
  | request requested =>
    cases requested with
    | refused | granted | hopeless => cases joined
    | queued =>
      obtain rfl := List.mem_singleton.1 joined
      exact ⟨_, List.mem_append_right _ (List.mem_singleton_self _), rfl, rfl⟩
  | takeNow | hangUp | withdraw | pass | denyAll => cases joined

theorem reports_keep {b : Bucket τ α} {steps : List (τ × Action α)} {id : Nat}
    (kept : ∀ s ∈ steps, s.2.givesUp id = false)
    (there : b.Waits id ∨ id ∈ (b.reports steps).flatMap Report.joined) :
    id ∈ ((b.reports steps).flatMap Report.sent).map (·.id) ∨ (b.after steps).Waits id := by
  induction steps generalizing b with
  | nil => exact there.elim .inr (fun none => by cases none)
  | cons s rest ih =>
    obtain ⟨kept₁, kept⟩ := List.forall_mem_cons.1 kept
    simp only [reports, List.flatMap_cons, List.map_append, List.mem_append] at there ⊢
    have first : id ∈ (b.perform s.1 s.2).2.sent.map (·.id) ∨
        ((b.perform s.1 s.2).1.Waits id ∨
          id ∈ ((b.perform s.1 s.2).1.reports rest).flatMap Report.joined) := by
      rcases there with waits | joined | later
      · exact (waits.perform s.1 kept₁).imp_right .inl
      · exact .inr (.inl (waits_of_joined joined))
      · exact .inr (.inr later)
    rcases first with sent | there
    · exact .inl (.inl sent)
    · exact (ih kept there).imp_left .inr

/-! ### After a shutdown -/

/-- A bucket that has been shut down. Its volume is a sum that has passed the limit of the capacity
since. -/
structure Shut (b : Bucket τ α) : Prop where
  closed : b.closed = true
  empty : b.waiters = []
  capped : ∃ x, b.volume = atMost x b.terms.capacity
  steady : KeepsSums α → 0 < b.terms.capacity → b.volume + 0 = b.volume

omit [Clock τ α] in
theorem steady_returned (keeps : KeepsSums α) (waiters : List (Waiter τ α)) {sum : α}
    (steady : sum + 0 = sum) :
    waiters.foldl (fun sum w => sum + w.granted) sum + 0 =
      waiters.foldl (fun sum w => sum + w.granted) sum := by
  induction waiters generalizing sum with
  | nil => exact steady
  | cons w rest ih => exact ih (keeps.sum (.inl steady))

/-- What a bucket that has been shut down reports. -/
def refusal : Action α → Report τ α
  | .takeNow amount => .taken amount false
  | .request _ => .answered (.settled (denied (Clock.start α)))
  | .hangUp _ | .withdraw _ => .silent
  | .pass | .denyAll => .resolved []

theorem shut_denyAll (b : Bucket τ α) (now : τ) : Shut (b.denyAll now).1 where
  closed := notify_closed _
  empty := notify_waiters _
  capped := by
    refine ⟨b.volume + b.waiters.foldl (fun sum w => sum + w.granted) 0, ?_⟩
    rw [denyAll, notify_volume, notify_terms]
    rfl
  steady keeps pos := by
    rw [denyAll, notify_terms] at pos
    rw [denyAll, notify_volume]
    exact keeps.atMost pos (keeps.sum (.inr (steady_returned keeps b.waiters keeps.zero)))

theorem Shut.perform {b : Bucket τ α} (shut : Shut b) (now : τ) (a : Action α) :
    (b.perform now a).2 = refusal a ∧ Shut (b.perform now a).1 := by
  have performed := b.performed now a
  generalize b.perform now a = outcome at performed ⊢
  have closed := shut.closed
  have empty := shut.empty
  cases performed with
  | takeNow took =>
    cases took with
    | refused => exact ⟨rfl, shut⟩
    | taken _ opened | short _ opened => simp [closed] at opened
  | request requested =>
    cases requested with
    | refused => exact ⟨rfl, shut⟩
    | granted opened | hopeless opened | queued opened => simp [closed] at opened
  | hangUp id =>
    refine ⟨rfl, closed, ?_, shut.capped, shut.steady⟩
    rw [Bucket.hangUp, empty]
    rfl
  | withdraw withdrew =>
    cases withdrew with
    | gone => exact ⟨rfl, shut⟩
    | found first =>
      rw [empty] at first
      cases first
  | pass =>
    have served : serve b.terms now (b.volumeAt now) b.waiters =
        ⟨b.volumeAt now, [], [], none⟩ := by
      rw [empty]
      rfl
    refine ⟨congrArg Report.resolved (congrArg Served.resolved served), closed, ?_, ?_, ?_⟩
    · exact congrArg Served.waiters served
    · exact ⟨_, congrArg Served.volume served⟩
    · intro keeps pos
      change (serve b.terms now (b.volumeAt now) b.waiters).volume + 0 =
        (serve b.terms now (b.volumeAt now) b.waiters).volume
      rw [served]
      exact keeps.atMost pos (keeps.sum (.inl (shut.steady keeps pos)))
  | denyAll =>
    refine ⟨?_, shut_denyAll b now⟩
    rw [denyAll, empty]
    rfl

theorem Shut.reports {b : Bucket τ α} (shut : Shut b) (steps : List (τ × Action α)) :
    b.reports steps = steps.map (fun s => refusal s.2) ∧ Shut (b.after steps) := by
  induction steps generalizing b with
  | nil => exact ⟨rfl, shut⟩
  | cons s rest ih =>
    obtain ⟨refused, shut'⟩ := shut.perform s.1 s.2
    obtain ⟨later, shut''⟩ := ih shut'
    refine ⟨?_, shut''⟩
    rw [Bucket.reports, refused, later]
    rfl

omit [Clock τ α] in
theorem atMost_atMost (x limit : α) : atMost (atMost x limit) limit = atMost x limit := by
  by_cases h : x ≤ limit
  · simp only [atMost, h, if_true]
  · simp only [atMost, h, if_false]
    split <;> rfl

/-- Nothing is in line whose units could be returned. -/
theorem Shut.denyAll_volume {b : Bucket τ α} (shut : Shut b) (now : τ) (keeps : KeepsSums α)
    (pos : 0 < b.terms.capacity) : (b.denyAll now).1.volume = b.volume := by
  obtain ⟨x, capped⟩ := shut.capped
  rw [denyAll, notify_volume]
  change credited b.terms b.volume (b.waiters.foldl (fun sum w => sum + w.granted) 0) = b.volume
  rw [shut.empty, List.foldl_nil, credited, shut.steady keeps pos, capped, atMost_atMost]

omit [Clock τ α] in
theorem capacity_pos {settings : BucketSettings α} {start : τ} {b : Bucket τ α}
    (created : create settings start = .ok b) : 0 < b.terms.capacity := by
  unfold create BucketSettings.terms at created
  dsimp only at created
  split at created
  · cases created
  · next agreed =>
    split at agreed
    · cases agreed
    · next fits =>
      repeat' split at agreed
      all_goals cases agreed
      cases created
      simp only [Bool.not_eq_true, Bool.not_eq_false', Bool.and_eq_true, decide_eq_true_eq] at fits
      exact fits.2

/-! ### Runs -/

/-- An uncancelled request is either in line or has been told how it ended, and that only once. -/
theorem endings_of_fresh {b : Bucket τ α} {start : τ} (fresh : Fresh b start)
    (steps : List (τ × Action α)) {reply : Reply τ α} (made : .answered reply ∈ b.reports steps) :
    (endings (b.reports steps) reply).length ≤ 1 ∧
      (Kept steps reply →
        (endings (b.reports steps) reply = [] ↔ (b.after steps).Holds reply)) := by
  cases reply with
  | settled grant => exact ⟨Nat.le_refl 1, fun _ => ⟨fun none => (by cases none), False.elim⟩⟩
  | queued id =>
    have order := reports_line b steps
    rw [fresh.line, List.nil_append, fresh.joined] at order
    obtain ⟨once, -, apart⟩ := List.nodup_append.1 (order.nodup List.nodup_range)
    have length_eq := length_endings (b.reports steps) id
    have none_iff : endings (b.reports steps) (.queued id) = [] ↔
        id ∉ ((b.reports steps).flatMap Report.sent).map (·.id) := by
      rw [← List.length_eq_zero_iff, length_eq, List.count_eq_zero]
    refine ⟨length_eq ▸ List.nodup_iff_count_le_one.1 once id, fun kept => ?_⟩
    rw [none_iff]
    constructor
    · intro unsent
      have joined : id ∈ (b.reports steps).flatMap Report.joined :=
        List.mem_flatMap.2 ⟨_, made, List.mem_singleton_self id⟩
      exact ((reports_keep kept (.inr joined)).resolve_left unsent).mem_line
    · intro there told
      exact apart id told id there rfl

theorem after_append (b : Bucket τ α) (steps later : List (τ × Action α)) :
    b.after (steps ++ later) = (b.after steps).after later :=
  List.foldl_append

/-- Every request ends at most once, and one that is not given up is without an outcome only while
it is in line. A pass only grants and a shutdown only denies. A shutdown denies all in line and
leaves no request without an outcome; the line stays empty, all that is asked for is refused, and
another shutdown changes nothing. That it does not change the volume needs of the numbers only what
is true of doubles and of rational numbers alike. -/
theorem ends_once {settings : BucketSettings α} {start : τ} {b : Bucket τ α}
    (created : create settings start = .ok b) (steps : List (τ × Action α)) :
    let log := b.reports steps
    let b' := b.after steps
    (log.flatMap Report.joined).Nodup ∧
      (∀ reply, .answered reply ∈ log → (endings log reply).length ≤ 1 ∧
        (Kept steps reply → (endings log reply = [] ↔ b'.Holds reply))) ∧
      ∀ now, (∀ r ∈ (b'.pass now).2, r.grant.granted = true) ∧
        (b'.denyAll now).2 =
          b'.waiters.map (fun w => ⟨w.id, denied (Clock.span α w.since now)⟩) ∧
        ∀ later, let whole := steps ++ (now, .denyAll) :: later
          let shut := b.after whole
          (∀ reply, .answered reply ∈ b.reports whole → Kept whole reply →
            (endings (b.reports whole) reply).length = 1) ∧
            shut.waiters = [] ∧
            (b'.denyAll now).1.reports later = later.map (fun s => refusal s.2) ∧
            ∀ again, (shut.denyAll again).2 = [] ∧ (shut.denyAll again).1.waiters = [] ∧
              (KeepsSums α → (shut.denyAll again).1.volume = shut.volume) ∧
              ∀ rest, (shut.denyAll again).1.reports rest = shut.reports rest := by
  intro log b'
  have fresh := fresh_create created
  have pos (run : List (τ × Action α)) : 0 < (b.after run).terms.capacity := by
    rw [after_terms]
    exact capacity_pos created
  refine ⟨?_, fun reply made => endings_of_fresh fresh steps made, fun now => ⟨?_, rfl, ?_⟩⟩
  · rw [fresh.joined]
    exact List.nodup_range
  · exact serve_granted _ _ _ _
  · intro later whole shut
    obtain ⟨refused, closed⟩ := (shut_denyAll b' now).reports later
    have reached : shut = (b'.denyAll now).1.after later := after_append b steps _
    rw [← reached] at closed
    refine ⟨fun reply made kept => ?_, closed.empty, refused, fun again => ?_⟩
    · obtain ⟨few, none_iff⟩ := endings_of_fresh fresh whole made
      have nobody : ¬ shut.Holds reply := by
        cases reply with
        | settled grant => exact id
        | queued id => simp [Holds, line, closed.empty]
      have some := mt (none_iff kept).1 nobody
      have := List.length_pos_of_ne_nil some
      omega
    · have closed' := shut_denyAll shut again
      refine ⟨?_, closed'.empty, ?_, fun rest => ?_⟩
      · rw [denyAll, closed.empty]
        rfl
      · intro keeps
        exact closed.denyAll_volume again keeps (pos whole)
      · rw [(closed'.reports rest).1, (closed.reports rest).1]

/-- Of three in line the first is granted, the second gives up and the third is there when the
bucket is shut down. -/
theorem ends_once_shut :
    let second (n : Nat) : Nanos := .ofMillis (1000 * n)
    let b : Bucket Nanos Float :=
      ⟨⟨10, 1, false, none, 10⟩, 1, second 0, [], 0, false, .absent, false⟩
    let steps : List (Nanos × Action Float) := [(second 0, .request 2), (second 0, .request 1),
      (second 0, .request 3), (second 0, .hangUp 1), (second 1, .pass), (second 1, .withdraw 1)]
    let whole := steps ++ (second 2, .denyAll) :: [(second 3, .pass), (second 4, .request 1)]
    create ⟨⟨"1/s", 1⟩, 10, none, none, some 1, false⟩ (second 0) = .ok b ∧
      (b.after steps).line = [2] ∧
      endings (b.reports whole) (.queued 0) = [.grantedInLine] ∧
      (endings (b.reports whole) (.queued 2)).length = 1 ∧
      ((b.after whole).denyAll (second 5)).1.volume = (b.after whole).volume := by
  intro second b steps whole
  have created : create ⟨⟨"1/s", 1⟩, 10, none, none, some 1, false⟩ (second 0) = .ok b := rfl
  obtain ⟨-, -, both⟩ := ends_once created steps
  obtain ⟨ended, -, -, again⟩ := (both (second 2)).2.2 [(second 3, .pass), (second 4, .request 1)]
  have made : .answered (.queued 2) ∈ b.reports whole := by
    have joined : 2 ∈ (b.reports whole).flatMap Report.joined := by decide +kernel
    obtain ⟨r, mem, own⟩ := List.mem_flatMap.1 joined
    rwa [Report.eq_of_joined own] at mem
  have kept : Kept whole (.queued 2) := by
    intro s mem
    simp only [whole, steps, List.cons_append, List.nil_append, List.mem_cons,
      List.not_mem_nil, or_false] at mem
    rcases mem with rfl | rfl | rfl | rfl | rfl | rfl | rfl | rfl | rfl <;> rfl
  exact ⟨created, by decide +kernel, by decide +kernel, ended _ made kept,
    (again (second 5)).2.2.1 keepsSums_float⟩

end Turnstile.Metering.Bucket
