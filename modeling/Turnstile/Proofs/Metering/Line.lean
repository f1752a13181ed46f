import Turnstile.Proofs.Metering.Run

namespace Turnstile.Metering.Bucket

open Quantity

variable {τ α : Type} [Quantity α] [Clock τ α]

/-! ### What each operation does -/

inductive Took (b : Bucket τ α) (amount : α) (now : τ) : Bool × Bucket τ α → Prop where
  | refused (no : isValid amount = false ∨ b.closed = true ∨ b.waiters ≠ []) :
      Took b amount now (false, b)
  | taken (valid : isValid amount = true) (opened : b.closed = false) (empty : b.waiters = [])
      (covered : covers (b.volumeAt now) amount = true) :
      Took b amount now (true, { b.refill now with volume := debited (b.volumeAt now) amount })
  | short (valid : isValid amount = true) (opened : b.closed = false) (empty : b.waiters = [])
      (uncovered : covers (b.volumeAt now) amount = false) : Took b amount now (false, b.refill now)

theorem took (b : Bucket τ α) (amount : α) (now : τ) :
    Took b amount now (b.takeNow amount now) := by
  unfold takeNow
  split
  · next no => exact .refused (by simpa [or_assoc] using no)
  · next yes =>
    simp only [Bool.or_eq_true, Bool.not_eq_true', not_or, Bool.not_eq_true, Bool.not_eq_false,
      List.isEmpty_iff] at yes
    obtain ⟨⟨valid, opened⟩, empty⟩ := yes
    dsimp only
    split
    · next covered => exact .taken valid opened empty covered
    · next uncovered => exact .short valid opened empty (Bool.not_eq_true _ ▸ uncovered)

inductive Requested (b : Bucket τ α) (amount : α) (now : τ) : Reply τ α × Bucket τ α → Prop where
  | refused (no : b.closed = true ∨ isValid amount = false) :
      Requested b amount now (.settled (denied (Clock.start α)), b)
  | granted (opened : b.closed = false) (valid : isValid amount = true) (empty : b.waiters = [])
      (covered : covers (b.volumeAt now) amount = true) :
      Requested b amount now (.settled ⟨true, amount, Clock.start α⟩,
        { b.refill now with volume := debited (b.volumeAt now) amount })
  | hopeless (opened : b.closed = false) (valid : isValid amount = true)
      (no : exceeds b.terms amount = true ∨ b.isFull = true) :
      Requested b amount now (.settled (denied (Clock.start α)), b.refill now)
  | queued (opened : b.closed = false) (valid : isValid amount = true)
      (fits : exceeds b.terms amount = false) (room : b.isFull = false) :
      Requested b amount now (.queued b.nextId, (b.refill now).enqueue amount now)

theorem requested (b : Bucket τ α) (amount : α) (now : τ) :
    Requested b amount now (b.request amount now) := by
  unfold request
  dsimp only
  split
  · next no => exact .refused (by simpa using no)
  · next yes =>
    obtain ⟨opened, valid⟩ : b.closed = false ∧ isValid amount = true := by simpa using yes
    split
    · next both =>
      obtain ⟨empty, covered⟩ := Bool.and_eq_true_iff.1 both
      exact .granted opened valid (List.isEmpty_iff.1 empty) covered
    · split
      · next no => exact .hopeless opened valid (.inl no)
      · next fits =>
        split
        · next full => exact .hopeless opened valid (.inr full)
        · next room =>
          exact .queued opened valid (Bool.not_eq_true _ ▸ fits) (Bool.not_eq_true _ ▸ room)

/-! ### Who is in line -/

/-- The numbers of those in line. -/
def line (b : Bucket τ α) : List Nat := b.waiters.map (·.id)

omit [Quantity α] [Clock τ α] in
theorem hangUp_line (b : Bucket τ α) (id : Nat) : (b.hangUp id).line = b.line := by
  simp only [line, hangUp, List.map_map]
  refine List.map_congr_left fun w _ => ?_
  simp only [Function.comp]
  split <;> rfl

inductive Withdrew (b : Bucket τ α) (id : Nat) (now : τ) : Bucket τ α → Prop where
  | gone (absent : id ∉ b.line) : Withdrew b id now b
  | found {w : Waiter τ α} (first : b.waiters.find? (·.id == id) = some w) :
      Withdrew b id now (notify { b.refill now with
        waiters := b.waiters.eraseP (·.id == id)
        volume := credited b.terms (b.volumeAt now) w.granted })

theorem withdrew (b : Bucket τ α) (id : Nat) (now : τ) :
    Withdrew b id now (b.withdraw id now) := by
  unfold withdraw
  split
  · next absent =>
    refine .gone fun there => ?_
    obtain ⟨w, mem, same⟩ := List.mem_map.1 there
    exact List.find?_eq_none.1 absent w mem (by simpa using same)
  · next w first => exact .found first

theorem Withdrew.waiters {b b' : Bucket τ α} {id : Nat} {now : τ}
    (withdrew : Withdrew b id now b') : b'.waiters = b.waiters.eraseP (·.id == id) := by
  cases withdrew with
  | gone absent =>
    refine (List.eraseP_of_forall_not fun w mem same => absent ?_).symm
    exact List.mem_map.2 ⟨w, mem, by simpa using same⟩
  | found => exact notify_waiters _

theorem Withdrew.nextId {b b' : Bucket τ α} {id : Nat} {now : τ}
    (withdrew : Withdrew b id now b') : b'.nextId = b.nextId := by
  cases withdrew with
  | gone => rfl
  | found => exact notify_nextId _

omit [Clock τ α] in
/-- What is delivered to the first in line changes nothing but what it has been given. -/
theorem deliver_ticket (t : Terms α) (volume : α) (w : Waiter τ α) :
    (deliver t volume w).1.id = w.id ∧ (deliver t volume w).1.requested = w.requested ∧
      (deliver t volume w).1.live = w.live := by
  unfold deliver
  dsimp only
  split
  · split <;> exact ⟨rfl, rfl, rfl⟩
  · split <;> exact ⟨rfl, rfl, rfl⟩

/-- A pass sends to some of those in line what they asked for and leaves others in line. -/
theorem serve_tickets (t : Terms α) (now : τ) (volume : α) (waiters : List (Waiter τ α)) :
    ((serve t now volume waiters).resolved.map (fun r => (r.id, r.grant.amount)) ++
      (serve t now volume waiters).waiters.map (fun w => (w.id, w.requested))).Sublist
      (waiters.map fun w => (w.id, w.requested)) := by
  induction waiters generalizing volume with
  | nil => exact .refl _
  | cons w rest ih =>
    obtain ⟨id, requested, -⟩ := deliver_ticket t volume w
    unfold serve
    split
    · exact (ih _).cons _
    · dsimp only
      split
      · rw [List.map_cons, List.map_cons, List.cons_append, id, requested]
        exact (ih _).cons_cons _
      · simp only [List.map_nil, List.nil_append, List.map_cons, id, requested, List.Sublist.refl]

theorem serve_line (t : Terms α) (now : τ) (volume : α) (waiters : List (Waiter τ α)) :
    ((serve t now volume waiters).resolved.map (·.id) ++
      (serve t now volume waiters).waiters.map (·.id)).Sublist (waiters.map (·.id)) := by
  have sub := (serve_tickets t now volume waiters).map Prod.fst
  simpa only [List.map_append, List.map_map, Function.comp_def] using sub

theorem serve_granted (t : Terms α) (now : τ) (volume : α) (waiters : List (Waiter τ α)) :
    ∀ r ∈ (serve t now volume waiters).resolved, r.grant.granted = true := by
  induction waiters generalizing volume with
  | nil => simp [serve]
  | cons w rest ih =>
    unfold serve
    split
    · exact ih _
    · dsimp only
      split
      · exact List.forall_mem_cons.2 ⟨rfl, ih _⟩
      · simp

/-- A pass drops nobody whose outcome is waited for. -/
theorem serve_keeps (t : Terms α) (now : τ) (volume : α) (waiters : List (Waiter τ α)) :
    ∀ w ∈ waiters, w.live = true →
      w.id ∈ (serve t now volume waiters).resolved.map (·.id) ∨
        ∃ w' ∈ (serve t now volume waiters).waiters, w'.id = w.id ∧ w'.live = true := by
  induction waiters generalizing volume with
  | nil => simp
  | cons first rest ih =>
    obtain ⟨id, -, live⟩ := deliver_ticket t volume first
    unfold serve
    intro w mem alive
    split
    · next gone =>
      rcases List.mem_cons.1 mem with rfl | mem
      · simp [alive] at gone
      · exact ih _ w mem alive
    · dsimp only
      split
      · rcases List.mem_cons.1 mem with rfl | mem
        · exact .inl (List.mem_map.2 ⟨_, List.mem_cons_self, id⟩)
        · refine (ih _ w mem alive).imp_left fun sent => ?_
          rw [List.map_cons]
          exact List.mem_cons_of_mem _ sent
      · right
        rcases List.mem_cons.1 mem with rfl | mem
        · exact ⟨_, List.mem_cons_self, id, live.trans alive⟩
        · exact ⟨w, List.mem_cons_of_mem _ mem, rfl, alive⟩

/-- Nobody but the first in line is touched by a pass. -/
theorem serve_tail (t : Terms α) (now : τ) (volume : α) (waiters : List (Waiter τ α)) :
    (serve t now volume waiters).waiters.tail.Sublist waiters.tail := by
  induction waiters generalizing volume with
  | nil => exact .refl _
  | cons w rest ih =>
    unfold serve
    split
    · exact (ih _).trans (List.tail_sublist rest)
    · dsimp only
      split
      · exact (ih _).trans (List.tail_sublist rest)
      · exact .refl _

/-- A pass ends the service if nobody is left, and otherwise asks for another one when the first
in line can be given something. -/
theorem serve_wake (t : Terms α) (now : τ) (volume : α) (waiters : List (Waiter τ α)) :
    let served := serve t now volume waiters
    (served.wake = none ∧ served.waiters = []) ∨ ∃ w rest,
      served.wake = some (wakeTime t served.volume w now) ∧ served.waiters = w :: rest := by
  induction waiters generalizing volume with
  | nil => exact .inl ⟨rfl, rfl⟩
  | cons w rest ih =>
    unfold serve
    split
    · exact ih _
    · dsimp only
      split
      · exact ih _
      · exact .inr ⟨_, _, rfl, rfl⟩

/-! ### Steps and runs -/

inductive Performed (b : Bucket τ α) (now : τ) : Action α → Bucket τ α × Report τ α → Prop where
  | takeNow {amount : α} {o : Bool × Bucket τ α} (took : Took b amount now o) :
      Performed b now (.takeNow amount) (o.2, .taken amount o.1)
  | request {amount : α} {o : Reply τ α × Bucket τ α} (requested : Requested b amount now o) :
      Performed b now (.request amount) (o.2, .answered o.1)
  | hangUp (id : Nat) : Performed b now (.hangUp id) (b.hangUp id, .silent)
  | withdraw {id : Nat} {b' : Bucket τ α} (withdrew : Withdrew b id now b') :
      Performed b now (.withdraw id) (b', .silent)
  | pass : Performed b now .pass ((b.pass now).1, .resolved (b.pass now).2)
  | denyAll : Performed b now .denyAll ((b.denyAll now).1, .resolved (b.denyAll now).2)

theorem performed (b : Bucket τ α) (now : τ) (a : Action α) :
    Performed b now a (b.perform now a) := by
  cases a with
  | takeNow amount => exact .takeNow (b.took amount now)
  | request amount => exact .request (b.requested amount now)
  | hangUp id => exact .hangUp id
  | withdraw id => exact .withdraw (b.withdrew id now)
  | pass => exact .pass
  | denyAll => exact .denyAll

theorem perform_terms (b : Bucket τ α) (now : τ) (a : Action α) :
    (b.perform now a).1.terms = b.terms := by
  have performed := b.performed now a
  generalize b.perform now a = outcome at performed ⊢
  cases performed with
  | takeNow took => cases took <;> rfl
  | request requested => cases requested <;> rfl
  | hangUp | pass => rfl
  | withdraw withdrew =>
    cases withdrew with
    | gone => rfl
    | found => exact notify_terms _
  | denyAll => exact notify_terms _

theorem after_terms (b : Bucket τ α) (steps : List (τ × Action α)) :
    (b.after steps).terms = b.terms := by
  induction steps generalizing b with
  | nil => rfl
  | cons s rest ih => exact (ih _).trans (perform_terms b s.1 s.2)

/-- A bucket that is shut down stays so. -/
theorem perform_closed {b : Bucket τ α} (closed : b.closed = true) (now : τ)
    (a : Action α) : (b.perform now a).1.closed = true := by
  have performed := b.performed now a
  generalize b.perform now a = outcome at performed ⊢
  cases performed with
  | takeNow took => cases took <;> exact closed
  | request requested => cases requested <;> exact closed
  | hangUp | pass => exact closed
  | withdraw withdrew =>
    cases withdrew with
    | gone => exact closed
    | found => exact (notify_closed _).trans closed
  | denyAll => exact notify_closed _

/-- What is sent, and then who is still in line, is found in this order among those who were in
line and those who came. -/
theorem perform_line (b : Bucket τ α) (now : τ) (a : Action α) :
    ((b.perform now a).2.sent.map (·.id) ++ (b.perform now a).1.line).Sublist
      (b.line ++ (b.perform now a).2.joined) := by
  have performed := b.performed now a
  generalize b.perform now a = outcome at performed ⊢
  have same : b.line.Sublist (b.line ++ []) := (List.append_nil b.line).symm ▸ .refl _
  cases performed with
  | takeNow took => cases took <;> exact same
  | request requested =>
    cases requested with
    | refused | granted | hopeless => exact same
    | queued =>
      change (List.map (·.id) (b.waiters ++ [_])).Sublist (b.line ++ [b.nextId])
      rw [List.map_append]
      exact .refl _
  | hangUp id =>
    change (b.hangUp id).line.Sublist (b.line ++ [])
    rw [hangUp_line]
    exact same
  | withdraw withdrew =>
    rw [line, withdrew.waiters]
    exact (List.eraseP_sublist.map _).trans same
  | pass => exact (serve_line b.terms now (b.volumeAt now) b.waiters).trans same
  | denyAll =>
    change (List.map (·.id) (b.denyAll now).2 ++ (b.denyAll now).1.waiters.map (·.id)).Sublist
      (b.line ++ [])
    simp only [denyAll, notify_waiters, List.map_nil, List.append_nil, List.map_map]
    exact .refl _

/-- Numbers are given out one after the other. -/
theorem perform_nextId (b : Bucket τ α) (now : τ) (a : Action α) :
    List.range (b.perform now a).1.nextId = List.range b.nextId ++ (b.perform now a).2.joined := by
  have performed := b.performed now a
  generalize b.perform now a = outcome at performed ⊢
  have same : List.range b.nextId = List.range b.nextId ++ [] := (List.append_nil _).symm
  cases performed with
  | takeNow took => cases took <;> exact same
  | request requested =>
    cases requested with
    | refused | granted | hopeless => exact same
    | queued => exact List.range_succ
  | hangUp | pass => exact same
  | withdraw withdrew =>
    rw [withdrew.nextId]
    exact same
  | denyAll =>
    rw [denyAll, notify_nextId]
    exact same

theorem reports_line (b : Bucket τ α) (steps : List (τ × Action α)) :
    (((b.reports steps).flatMap Report.sent).map (·.id) ++ (b.after steps).line).Sublist
      (b.line ++ (b.reports steps).flatMap Report.joined) := by
  induction steps generalizing b with
  | nil => exact (List.append_nil b.line).symm ▸ .refl _
  | cons s rest ih =>
    have first := perform_line b s.1 s.2
    have later := ih (b.perform s.1 s.2).1
    simp only [reports, List.flatMap_cons, List.map_append, List.append_assoc]
    -- those who are left by the first step are where the rest of the run begins
    refine (later.append_left _).trans ?_
    rw [← List.append_assoc, ← List.append_assoc]
    exact first.append_right _

theorem reports_nextId (b : Bucket τ α) (steps : List (τ × Action α)) :
    List.range (b.after steps).nextId =
      List.range b.nextId ++ (b.reports steps).flatMap Report.joined := by
  induction steps generalizing b with
  | nil => exact (List.append_nil _).symm
  | cons s rest ih =>
    have later := ih (b.perform s.1 s.2).1
    rw [perform_nextId, List.append_assoc] at later
    exact later

omit [Quantity α] [Clock τ α] in
theorem Fresh.line {b : Bucket τ α} {start : τ} (fresh : Fresh b start) : b.line = [] := by
  rw [Bucket.line, fresh.waiters]
  rfl

/-- The first number is zero. -/
theorem Fresh.joined {b : Bucket τ α} {start : τ} (fresh : Fresh b start)
    (steps : List (τ × Action α)) :
    (b.reports steps).flatMap Report.joined = List.range (b.after steps).nextId := by
  have numbers := reports_nextId b steps
  rw [fresh.nextId] at numbers
  exact numbers.symm

end Turnstile.Metering.Bucket
