import Turnstile.Proofs.Metering.Line

namespace Turnstile.Metering.Bucket

variable {τ α : Type} [Quantity α]

/-- Nobody behind the first in line has been given anything. -/
def OnlyFirst (waiters : List (Waiter τ α)) : Prop := ∀ w ∈ waiters.tail, w.granted = 0

theorem OnlyFirst.of_sublist {waiters waiters' : List (Waiter τ α)} (only : OnlyFirst waiters)
    (sub : waiters'.tail.Sublist waiters.tail) : OnlyFirst waiters' := by
  intro w mem
  exact only w (sub.subset mem)

theorem OnlyFirst.append {waiters : List (Waiter τ α)} (only : OnlyFirst waiters) {w : Waiter τ α}
    (new : w.granted = 0) : OnlyFirst (waiters ++ [w]) := by
  cases waiters with
  | nil =>
    intro w' mem
    cases mem
  | cons first rest =>
    intro w' mem
    rcases List.mem_append.1 mem with mem | mem
    · exact only w' mem
    · rw [List.mem_singleton.1 mem]
      exact new

theorem OnlyFirst.hangUp {b : Bucket τ α} (only : OnlyFirst b.waiters) (id : Nat) :
    OnlyFirst (b.hangUp id).waiters := by
  intro w mem
  rw [Bucket.hangUp, ← List.map_tail] at mem
  obtain ⟨w', mem', rfl⟩ := List.mem_map.1 mem
  have nothing := only w' mem'
  split <;> exact nothing

variable [Clock τ α]

theorem OnlyFirst.perform {b : Bucket τ α} (only : OnlyFirst b.waiters) (now : τ) (a : Action α) :
    OnlyFirst (b.perform now a).1.waiters := by
  have performed := b.performed now a
  generalize b.perform now a = outcome at performed ⊢
  cases performed with
  | takeNow took => cases took <;> exact only
  | request requested =>
    cases requested with
    | refused | granted | hopeless => exact only
    | queued => exact only.append rfl
  | hangUp id => exact only.hangUp id
  | withdraw withdrew =>
    rw [withdrew.waiters]
    exact only.of_sublist List.eraseP_sublist.tail
  | pass => exact only.of_sublist (serve_tail _ _ _ _)
  | denyAll =>
    rw [denyAll, notify_waiters]
    intro w mem
    cases mem

theorem OnlyFirst.after {b : Bucket τ α} (only : OnlyFirst b.waiters)
    (steps : List (τ × Action α)) : OnlyFirst (b.after steps).waiters := by
  induction steps generalizing b with
  | nil => exact only
  | cons s rest ih => exact ih (only.perform s.1 s.2)

/-- Whether somebody who is not in line is given units. -/
def Report.handsOver : Report τ α → Bool
  | .taken _ success => success
  | .answered (.settled grant) => grant.granted
  | .answered (.queued _) | .resolved _ | .silent => false

theorem perform_handsOver {b : Bucket τ α} {now : τ} {a : Action α}
    (given : (b.perform now a).2.handsOver = true) :
    b.waiters = [] ∧ (b.perform now a).1.waiters = [] := by
  have performed := b.performed now a
  generalize b.perform now a = outcome at performed given ⊢
  cases performed with
  | takeNow took =>
    cases took with
    | taken _ _ empty => exact ⟨empty, empty⟩
    | refused | short => cases given
  | request requested =>
    cases requested with
    | granted _ _ empty => exact ⟨empty, empty⟩
    | refused | hopeless | queued => cases given
  | hangUp | withdraw | pass | denyAll => cases given

omit [Quantity α] [Clock τ α] in
theorem eraseP_hangUp {waiters : List (Waiter τ α)} (distinct : (waiters.map (·.id)).Nodup)
    (id : Nat) :
    (waiters.map fun w => if w.id = id then { w with live := false } else w).eraseP (·.id == id) =
      waiters.filter (·.id != id) := by
  induction waiters with
  | nil => rfl
  | cons first rest ih =>
    obtain ⟨absent, distinct⟩ := List.nodup_cons.1 distinct
    by_cases same : first.id = id
    · have others : ∀ w ∈ rest, w.id ≠ id := by
        rintro w mem rfl
        exact absent (List.mem_map.2 ⟨w, mem, same.symm⟩)
      have kept : rest.map (fun w => if w.id = id then { w with live := false } else w) = rest := by
        refine (List.map_congr_left fun w mem => if_neg (others w mem)).trans ?_
        exact List.map_id' rest
      rw [List.map_cons, if_pos same, List.eraseP_cons_of_pos (by simpa using same), kept,
        List.filter_cons_of_neg (by simpa using same)]
      refine (List.filter_eq_self.2 fun w mem => ?_).symm
      simpa using others w mem
    · rw [List.map_cons, if_neg same, List.eraseP_cons_of_neg (by simpa using same), ih distinct,
        List.filter_cons_of_pos (by simpa using same)]

theorem cancel_waiters {b : Bucket τ α} (distinct : b.line.Nodup) (id : Nat) (now : τ) :
    (b.cancel id now).waiters = b.waiters.filter (·.id != id) := by
  rw [cancel, ((b.hangUp id).withdrew id now).waiters]
  exact eraseP_hangUp distinct id

/-- Those who do not give up stay as they are. -/
theorem cancels_waiters {b : Bucket τ α} (distinct : b.line.Nodup) (gone : List (Nat × τ)) :
    (gone.foldl (fun b g => b.cancel g.1 g.2) b).waiters =
      b.waiters.filter fun w => w.id ∉ gone.map (·.1) := by
  induction gone generalizing b with
  | nil => exact (List.filter_eq_self.2 fun w _ => by simp).symm
  | cons g rest ih =>
    have left := cancel_waiters distinct g.1 g.2
    have distinct' : (b.cancel g.1 g.2).line.Nodup := by
      rw [line, left]
      exact distinct.sublist (List.filter_sublist.map _)
    rw [List.foldl_cons, ih distinct', left, List.filter_filter]
    refine List.filter_congr fun w _ => ?_
    rw [List.map_cons, Bool.eq_iff_iff]
    simp [and_comm]

def granted (log : List (Report τ α)) : List Nat :=
  ((log.flatMap Report.sent).filter (·.grant.granted)).map (·.id)

/-- Whatever happens to a bucket, grants are sent in the order in which requests got in line, those
in line come after all who were granted, nobody is given units past the line, only the first in
line has been given a part, and those who give up leave the others as they are. -/
theorem first_come_first_served {settings : BucketSettings α} {start : τ} {b : Bucket τ α}
    (created : create settings start = .ok b) (steps : List (τ × Action α)) :
    let log := b.reports steps
    let b' := b.after steps
    (granted log ++ b'.line).Sublist (log.flatMap Report.joined) ∧
      (log.flatMap Report.joined).Pairwise (· < ·) ∧
      (∀ now a, (b'.perform now a).2.handsOver = true →
        b'.waiters = [] ∧ (b'.perform now a).1.waiters = []) ∧
      (∀ w ∈ b'.waiters.tail, w.granted = 0) ∧
      ∀ gone : List (Nat × τ), (gone.foldl (fun b g => b.cancel g.1 g.2) b').waiters =
        b'.waiters.filter fun w => w.id ∉ gone.map (·.1) := by
  intro log b'
  have fresh := fresh_create created
  have order : ((log.flatMap Report.sent).map (·.id) ++ b'.line).Sublist
      (log.flatMap Report.joined) := by
    have order := reports_line b steps
    rwa [fresh.line] at order
  have rising : (log.flatMap Report.joined).Pairwise (· < ·) := by
    rw [fresh.joined steps]
    exact List.pairwise_lt_range
  have distinct : b'.line.Nodup := by
    have rising' := rising.sublist ((List.sublist_append_right _ _).trans order)
    exact rising'.imp Nat.ne_of_lt
  have only : OnlyFirst b.waiters := by
    rw [fresh.waiters]
    intro w mem
    cases mem
  refine ⟨?_, rising, fun now a given => perform_handsOver given, only.after steps,
    cancels_waiters distinct⟩
  exact ((List.filter_sublist.map _).append_right _).trans order

/-- Four are in line; the first is filled in two steps and the third gives up. -/
theorem first_come_first_served_partial :
    let b : Bucket Rat Rat := ⟨⟨10, 2, true, none, 4⟩, 0, 0, [], 0, false, .absent, false⟩
    let steps : List (Rat × Action Rat) := [(0, .request 3), (0, .request 5), (0, .request 1),
      (1, .pass), (1, .request 2), (2, .pass), (2, .hangUp 2), (2, .withdraw 2)]
    let log := b.reports steps
    let b' := b.after steps
    create ⟨⟨"2/s", 2⟩, 10, none, some 4, some 0, true⟩ 0 = .ok b ∧
      granted log = [0] ∧ b'.line = [1, 3] ∧ b'.waiters.map (·.granted) = [1, 0] ∧
      (granted log ++ b'.line).Sublist (log.flatMap Report.joined) ∧
      ∀ w ∈ b'.waiters.tail, w.granted = 0 := by
  intro b steps log b'
  have created : create ⟨⟨"2/s", 2⟩, 10, none, some 4, some 0, true⟩ 0 = .ok b := rfl
  obtain ⟨order, -, -, only, -⟩ := first_come_first_served created steps
  exact ⟨created, by decide +kernel, by decide +kernel, by decide +kernel, order, only⟩

end Turnstile.Metering.Bucket
