import Mathlib
import Turnstile.Proofs.Metering.Exact
import Turnstile.Proofs.Metering.Line

/-!
# What a request that is given up costs

The outcome of a request is on its way from the action that ends the wait until the one who asked
receives it. A request that is given up while it is in line returns all it was given. One that is
given up while its grant is on the way returns nothing, because there is nothing to take out of the
line any more; unless the bucket is full, its units are lost (`drop_spec`).
-/

namespace Turnstile.Metering

open Bucket Quantity

/-- A bucket and the outcomes that were sent and not yet received. -/
structure Exchange where
  bucket : Bucket Rat Rat
  inFlight : List (Resolution Rat Rat) := []

namespace Exchange

inductive Event where
  | act (a : Action Rat)
  | receive (id : Nat)
  /-- The one who asked gives up, and with it whatever is on the way. -/
  | drop (id : Nat)

def step (x : Exchange) (now : Rat) : Event → Exchange
  | .act a => ⟨(x.bucket.perform now a).1, x.inFlight ++ (x.bucket.perform now a).2.sent⟩
  | .receive id => { x with inFlight := x.inFlight.filter (·.id != id) }
  | .drop id => ⟨x.bucket.cancel id now, x.inFlight.filter (·.id != id)⟩

def run (x : Exchange) (steps : List (Rat × Event)) : Exchange :=
  steps.foldl (fun x s => x.step s.1 s.2) x

def ids (x : Exchange) : List Nat :=
  x.bucket.waiters.map (·.id) ++ x.inFlight.map (·.id)

/-- A request has one number and is either in line or has its outcome on the way. -/
structure Tracked (x : Exchange) : Prop where
  distinct : x.ids.Nodup
  known : ∀ id ∈ x.ids, id < x.bucket.nextId
  asked : ∀ w ∈ x.bucket.waiters, 0 ≤ w.requested
  answered : ∀ r ∈ x.inFlight, 0 ≤ r.grant.amount

variable {x : Exchange}

/-- No request is there that was not tracked before. -/
theorem Tracked.of_subperm (tracked : x.Tracked) {y : Exchange} (moved : y.ids.Subperm x.ids)
    (next : x.bucket.nextId ≤ y.bucket.nextId)
    (asked : ∀ w ∈ y.bucket.waiters, 0 ≤ w.requested)
    (answered : ∀ r ∈ y.inFlight, 0 ≤ r.grant.amount) : y.Tracked where
  distinct := by
    obtain ⟨ids, perm, sub⟩ := moved
    exact perm.nodup_iff.1 (tracked.distinct.sublist sub)
  known id h := (tracked.known id (moved.subset h)).trans_le next
  asked := asked
  answered := answered

/-- Some have left the line or received their outcome. -/
theorem Tracked.of_sublist (tracked : x.Tracked) {b : Bucket Rat Rat}
    {inFlight : List (Resolution Rat Rat)} (line : b.waiters.Sublist x.bucket.waiters)
    (fewer : inFlight.Sublist x.inFlight) (next : b.nextId = x.bucket.nextId) :
    Tracked ⟨b, inFlight⟩ :=
  tracked.of_subperm ((line.map _).append (fewer.map _)).subperm next.ge
    (fun w h => tracked.asked w (line.subset h)) (fun r h => tracked.answered r (fewer.subset h))

theorem Tracked.of_enqueue (tracked : x.Tracked) {amount started now : Rat} (valid : 0 ≤ amount) :
    Tracked ⟨(x.bucket.refill started).enqueue amount now, x.inFlight⟩ := by
  have moved : (x.bucket.waiters.map (·.id) ++ [x.bucket.nextId] ++ x.inFlight.map (·.id)).Perm
      (x.bucket.nextId :: x.ids) := by
    rw [List.append_assoc]
    exact List.perm_middle
  have ids_eq : Exchange.ids ⟨(x.bucket.refill started).enqueue amount now, x.inFlight⟩ =
      x.bucket.waiters.map (·.id) ++ [x.bucket.nextId] ++ x.inFlight.map (·.id) := by
    simp [Exchange.ids, enqueue, refill]
  refine ⟨?_, ?_, ?_, tracked.answered⟩
  · rw [ids_eq, moved.nodup_iff, List.nodup_cons]
    exact ⟨fun h => absurd (tracked.known _ h) (lt_irrefl _), tracked.distinct⟩
  · rw [ids_eq]
    intro id h
    rcases List.mem_cons.1 (moved.mem_iff.1 h) with rfl | h
    · exact Nat.lt_succ_self _
    · exact Nat.lt_succ_of_lt (tracked.known id h)
  · intro w h
    rcases List.mem_append.1 h with h | h
    · exact tracked.asked w h
    · rw [List.mem_singleton.1 h]
      exact valid

theorem Tracked.of_pass (tracked : x.Tracked) (now : Rat) :
    Tracked ⟨(x.bucket.pass now).1, x.inFlight ++ (x.bucket.pass now).2⟩ := by
  have moved := serve_tickets x.bucket.terms now (x.bucket.volumeAt now) x.bucket.waiters
  have sub := moved.map Prod.fst
  simp only [List.map_append, List.map_map, Function.comp_def] at sub
  have amounts : ∀ p ∈ x.bucket.waiters.map fun w => (w.id, w.requested), 0 ≤ p.2 :=
    List.forall_mem_map.2 tracked.asked
  refine tracked.of_subperm ?_ le_rfl ?_ ?_
  · refine (List.Perm.subperm ?_).trans (sub.append_right (x.inFlight.map (·.id))).subperm
    simp only [ids, Bucket.pass, Bucket.refill, List.map_append]
    refine List.Perm.trans ?_ (List.perm_append_comm.append_right _)
    rw [List.append_assoc]
    exact List.perm_append_comm.append_left _
  · intro w h
    exact amounts _ (moved.subset (List.mem_append_right _ (List.mem_map_of_mem h)))
  · intro r h
    rcases List.mem_append.1 h with h | h
    · exact tracked.answered r h
    · exact amounts _ (moved.subset (List.mem_append_left _ (List.mem_map_of_mem h)))

theorem Tracked.of_hangUp (tracked : x.Tracked) (id : Nat) :
    Tracked ⟨x.bucket.hangUp id, x.inFlight⟩ := by
  refine tracked.of_subperm ?_ le_rfl ?_ tracked.answered
  · rw [ids, ids]
    change ((x.bucket.hangUp id).line ++ _).Subperm _
    rw [hangUp_line]
    exact List.Subperm.refl _
  · intro w hw
    obtain ⟨w', hw', rfl⟩ := List.mem_map.1 hw
    have := tracked.asked w' hw'
    split <;> exact this

theorem Tracked.of_withdraw (tracked : x.Tracked) {id : Nat} {now : Rat} {b : Bucket Rat Rat}
    (withdrew : Withdrew x.bucket id now b) : Tracked ⟨b, x.inFlight⟩ := by
  refine tracked.of_sublist ?_ (.refl _) withdrew.nextId
  rw [withdrew.waiters]
  exact List.eraseP_sublist

theorem Tracked.of_denyAll (tracked : x.Tracked) (now : Rat) :
    Tracked ⟨(x.bucket.denyAll now).1, x.inFlight ++ (x.bucket.denyAll now).2⟩ := by
  refine tracked.of_subperm ?_ ?_ ?_ ?_
  · refine List.Perm.subperm ?_
    simp only [ids, denyAll, notify_waiters, List.map_nil, List.nil_append, List.map_append,
      List.map_map, Function.comp_def]
    exact List.perm_append_comm
  · simp only [denyAll, notify_nextId]
    exact le_rfl
  · simp [denyAll]
  · intro r h
    rcases List.mem_append.1 h with h | h
    · exact tracked.answered r h
    · obtain ⟨w, -, rfl⟩ := List.mem_map.1 h
      exact le_rfl

theorem Tracked.perform (tracked : x.Tracked) (now : Rat) (a : Action Rat) :
    Tracked ⟨(x.bucket.perform now a).1, x.inFlight ++ (x.bucket.perform now a).2.sent⟩ := by
  have performed := x.bucket.performed now a
  generalize x.bucket.perform now a = outcome at performed ⊢
  cases performed with
  | takeNow took =>
    rw [Report.sent, List.append_nil]
    cases took <;> exact tracked.of_sublist (.refl _) (.refl _) rfl
  | request requested =>
    rw [Report.sent, List.append_nil]
    cases requested with
    | refused | granted | hopeless => exact tracked.of_sublist (.refl _) (.refl _) rfl
    | queued _ valid => exact tracked.of_enqueue ((isValid_iff _).1 valid)
  | hangUp id =>
    rw [Report.sent, List.append_nil]
    exact tracked.of_hangUp id
  | withdraw withdrew =>
    rw [Report.sent, List.append_nil]
    exact tracked.of_withdraw withdrew
  | pass => exact tracked.of_pass now
  | denyAll => exact tracked.of_denyAll now

theorem Tracked.step (tracked : x.Tracked) (now : Rat) (e : Event) : (x.step now e).Tracked := by
  have fewer (id : Nat) : (x.inFlight.filter (·.id != id)).Sublist x.inFlight :=
    List.filter_sublist
  cases e with
  | act a => exact tracked.perform now a
  | receive id => exact tracked.of_sublist (.refl _) (fewer id) rfl
  | drop id =>
    have withdrew := (x.bucket.hangUp id).withdrew id now
    have cancelled : Tracked ⟨x.bucket.cancel id now, x.inFlight⟩ :=
      (tracked.of_hangUp id).of_withdraw withdrew
    exact cancelled.of_sublist (.refl _) (fewer id) rfl

theorem Tracked.run (tracked : x.Tracked) (steps : List (Rat × Event)) : (x.run steps).Tracked := by
  unfold Exchange.run
  induction steps generalizing x with
  | nil => exact tracked
  | cons s rest ih => exact ih (tracked.step s.1 s.2)

/-- Giving up a request leaves the bucket with what it was given back in it. -/
def Returns (x : Exchange) (now : Rat) (id : Nat) (given : Rat) : Prop :=
  (x.step now (.drop id)).bucket.volumeAt now =
    credited x.bucket.terms (x.bucket.volumeAt now) given

theorem find?_hangUp {b : Bucket Rat Rat} (distinct : (b.waiters.map (·.id)).Nodup)
    {w : Waiter Rat Rat} (mem : w ∈ b.waiters) :
    (b.hangUp w.id).waiters.find? (·.id == w.id) = some { w with live := false } := by
  have there : { w with live := false } ∈ (b.hangUp w.id).waiters :=
    List.mem_map.2 ⟨w, mem, if_pos rfl⟩
  obtain ⟨w', found⟩ := Option.isSome_iff_exists.1
    (List.find?_isSome (p := (·.id == w.id)).2 ⟨_, there, beq_self_eq_true _⟩)
  have same : w'.id = w.id := by simpa using List.find?_some found
  change b.line.Nodup at distinct
  rw [← hangUp_line b w.id] at distinct
  rw [found, List.inj_on_of_nodup_map distinct (List.mem_of_find?_eq_some found) there same]

theorem returns_of_waiting {now : Rat} (distinct : (x.bucket.waiters.map (·.id)).Nodup)
    {w : Waiter Rat Rat} (mem : w ∈ x.bucket.waiters) : x.Returns now w.id w.granted := by
  set after := (x.step now (.drop w.id)).bucket with hafter
  have found := find?_hangUp distinct mem
  simp only [Exchange.step, cancel, withdraw, found] at hafter
  have refilled : after.lastRefill = now := by simp [hafter, Bucket.refill]
  have terms : after.terms = x.bucket.terms := by simp [hafter, Bucket.refill, hangUp]
  have volume : after.volume = credited x.bucket.terms (x.bucket.volumeAt now) w.granted := by
    simp [hafter, Bucket.refill, hangUp, volumeAt]
  have fits : after.volume ≤ after.terms.capacity := by
    rw [volume, terms, credited_eq]
    exact min_le_right _ _
  show after.volumeAt now = _
  rw [volumeAt_of_level refilled fits, volume]

theorem cancel_of_not_waiting {b : Bucket Rat Rat} {id : Nat} (now : Rat)
    (gone : id ∉ b.waiters.map (·.id)) : b.cancel id now = b := by
  have unchanged : b.hangUp id = b := by
    unfold hangUp
    have : b.waiters.map (fun w => if w.id = id then { w with live := false } else w) =
        b.waiters.map fun w => w := by
      refine List.map_congr_left fun w hw => if_neg ?_
      rintro rfl
      exact gone (List.mem_map_of_mem hw)
    rw [this, List.map_id']
  unfold cancel withdraw
  rw [unchanged]
  have : b.waiters.find? (·.id == id) = none := by
    refine List.find?_eq_none.2 fun w hw same => gone ?_
    exact List.mem_map.2 ⟨w, hw, by simpa using same⟩
  rw [this]

theorem returns_iff_of_gone {now : Rat} {id : Nat} (gone : id ∉ x.bucket.waiters.map (·.id))
    {given : Rat} (nonneg : 0 ≤ given) :
    x.Returns now id given ↔
      given = 0 ∨ x.bucket.volumeAt now = x.bucket.terms.capacity := by
  have fits : x.bucket.volumeAt now ≤ x.bucket.terms.capacity := volumeAt_le x.bucket now
  unfold Returns
  rw [credited_eq]
  simp only [Exchange.step, cancel_of_not_waiting now gone]
  constructor
  · intro h
    rcases min_choice (x.bucket.volumeAt now + given) x.bucket.terms.capacity with hmin | hmin
    · rw [hmin] at h
      left
      linarith
    · rw [hmin] at h
      exact .inr h
  · rintro (rfl | full)
    · rw [add_zero, min_eq_left fits]
    · rw [full, min_eq_right (le_add_of_nonneg_right nonneg)]

theorem tracked_of_create {settings : BucketSettings Rat} {start : Rat} {b : Bucket Rat Rat}
    (created : Bucket.create settings start = .ok b) : Tracked { bucket := b } := by
  have empty := (fresh_create created).waiters
  exact ⟨by simp [ids, empty], by simp [ids, empty], by simp [empty], by simp⟩

/-- A request that is given up in line costs nothing. One that is given up while its grant is on
the way costs what it was granted, unless the bucket is full. -/
theorem drop_spec {settings : BucketSettings Rat} {start : Rat} {b : Bucket Rat Rat}
    (created : Bucket.create settings start = .ok b) (steps : List (Rat × Event)) (now : Rat) :
    let x := run { bucket := b } steps
    (∀ w ∈ x.bucket.waiters, x.Returns now w.id w.granted) ∧
      ∀ r ∈ x.inFlight, x.Returns now r.id r.grant.amount ↔
        r.grant.amount = 0 ∨ x.bucket.volumeAt now = x.bucket.terms.capacity := by
  intro x
  have tracked : x.Tracked := (tracked_of_create created).run steps
  obtain ⟨line, -, apart⟩ := List.nodup_append.1 tracked.distinct
  refine ⟨fun w mem => returns_of_waiting line mem, fun r mem => ?_⟩
  refine returns_iff_of_gone (fun waiting => ?_) (tracked.answered r mem)
  exact apart _ waiting _ (List.mem_map_of_mem mem) rfl

/-- A request that has ten of its twelve units is given up. -/
theorem drop_returns_part :
    let b : Bucket Rat Rat := ⟨⟨10, 2, true, none, 10⟩, 10, 0, [], 0, false, .absent, false⟩
    let x := run { bucket := b } [(0, .act (.request 12)), (0, .act .pass)]
    Bucket.create ⟨⟨"2/s", 2⟩, 10, none, none, none, true⟩ 0 = .ok b ∧
      x.bucket.waiters.map (fun w => (w.id, w.granted)) = [(0, 10)] ∧ x.Returns 1 0 10 := by
  intro b x
  have created : Bucket.create ⟨⟨"2/s", 2⟩, 10, none, none, none, true⟩ 0 = .ok b := rfl
  have line : x.bucket.waiters.map (fun w => (w.id, w.granted)) = [(0, 10)] := by decide +kernel
  have waiting : (0, 10) ∈ x.bucket.waiters.map fun w => (w.id, w.granted) := by
    rw [line]
    exact List.mem_singleton.2 rfl
  obtain ⟨w, mem, eq⟩ := List.mem_map.1 waiting
  obtain ⟨id, granted⟩ := Prod.mk.inj eq
  have returned := (drop_spec created [(0, .act (.request 12)), (0, .act .pass)] 1).1 w mem
  rw [id, granted] at returned
  exact ⟨created, line, returned⟩

/-- A request for two units is given up after the pass that grants it. The bucket is left empty. -/
theorem drop_in_flight_loses :
    let b : Bucket Rat Rat := ⟨⟨10, 1, false, none, 10⟩, 1, 0, [], 0, false, .absent, false⟩
    let x := run { bucket := b } [(0, .act (.request 2)), (1, .act .pass)]
    Bucket.create ⟨⟨"1/s", 1⟩, 10, none, none, some 1, false⟩ 0 = .ok b ∧
      x.inFlight.map (fun r => (r.id, r.grant.granted, r.grant.amount)) = [(0, true, 2)] ∧
      (x.step 1 (.drop 0)).bucket.volumeAt 1 = 0 ∧ ¬ x.Returns 1 0 2 := by
  unfold Returns
  exact ⟨rfl, by decide +kernel, by decide +kernel, by decide +kernel⟩

end Exchange

end Turnstile.Metering
