import Turnstile.Proofs.Metering.Endings

namespace Turnstile.Metering.Bucket

variable {τ α : Type}

/-- The numbers in line rise and have all been given out. -/
def Numbered (b : Bucket τ α) : Prop := b.line.Sublist (List.range b.nextId)

/-- Whoever has this number in line asks for so much. -/
def Asks (b : Bucket τ α) (id : Nat) (amount : α) : Prop :=
  ∀ w ∈ b.waiters, w.id = id → w.requested = amount

theorem Fresh.numbered {b : Bucket τ α} {start : τ} (fresh : Fresh b start) : b.Numbered := by
  rw [Numbered, fresh.line]
  exact List.nil_sublist _

theorem Numbered.lt {b : Bucket τ α} (numbered : b.Numbered) {id : Nat} (there : id ∈ b.line) :
    id < b.nextId :=
  List.mem_range.1 (numbered.subset there)

variable [Quantity α] [Clock τ α]

theorem Numbered.sent_line {b : Bucket τ α} (numbered : b.Numbered) (now : τ) (a : Action α) :
    ((b.perform now a).2.sent.map (·.id) ++ (b.perform now a).1.line).Sublist
      (List.range (b.perform now a).1.nextId) := by
  rw [perform_nextId]
  exact (b.perform_line now a).trans (numbered.append_right _)

theorem Numbered.perform {b : Bucket τ α} (numbered : b.Numbered) (now : τ) (a : Action α) :
    (b.perform now a).1.Numbered :=
  (List.sublist_append_right _ _).trans (numbered.sent_line now a)

theorem Numbered.after {b : Bucket τ α} (numbered : b.Numbered) (steps : List (τ × Action α)) :
    (b.after steps).Numbered := by
  induction steps generalizing b with
  | nil => exact numbered
  | cons s rest ih => exact ih (numbered.perform s.1 s.2)

/-- Nobody whose outcome is sent stays in line. -/
theorem Numbered.not_mem_line {b : Bucket τ α} (numbered : b.Numbered) {now : τ} {a : Action α}
    {id : Nat} (sent : id ∈ (b.perform now a).2.sent.map (·.id)) :
    id ∉ (b.perform now a).1.line := fun there =>
  (List.nodup_append.1 ((numbered.sent_line now a).nodup List.nodup_range)).2.2 id sent id there rfl

theorem nextId_le_perform (b : Bucket τ α) (now : τ) (a : Action α) :
    b.nextId ≤ (b.perform now a).1.nextId := by
  have lengths := congrArg List.length (b.perform_nextId now a)
  simp only [List.length_append, List.length_range] at lengths
  omega

/-- Nobody gets in line under an old number. -/
theorem mem_line_of_perform {b : Bucket τ α} {now : τ} {a : Action α} {id : Nat}
    (old : id < b.nextId) (there : id ∈ (b.perform now a).1.line) : id ∈ b.line := by
  have came := (b.perform_line now a).subset (List.mem_append_right _ there)
  refine (List.mem_append.1 came).resolve_right fun joined => ?_
  have numbers : (List.range b.nextId ++ (b.perform now a).2.joined).Nodup :=
    b.perform_nextId now a ▸ List.nodup_range
  exact (List.nodup_append.1 numbers).2.2 id (List.mem_range.2 old) id joined rfl

/-- What is asked for under a number stays the same, and is what is granted under it. -/
theorem Asks.perform {b : Bucket τ α} {id : Nat} {amount : α} (asks : b.Asks id amount)
    (old : id < b.nextId) (now : τ) (a : Action α) :
    (b.perform now a).1.Asks id amount ∧
      ∀ r ∈ (b.perform now a).2.sent, r.id = id → r.grant.granted = true →
        r.grant.amount = amount := by
  have performed := b.performed now a
  generalize b.perform now a = outcome at performed ⊢
  cases performed with
  | takeNow took => cases took <;> exact ⟨asks, by rintro _ ⟨⟩⟩
  | request requested =>
    cases requested with
    | refused | granted | hopeless => exact ⟨asks, by rintro _ ⟨⟩⟩
    | queued =>
      refine ⟨fun w mem same => ?_, by rintro _ ⟨⟩⟩
      rcases List.mem_append.1 mem with mem | new
      · exact asks w mem same
      · obtain rfl := List.mem_singleton.1 new
        exact absurd same (Nat.ne_of_gt old)
  | hangUp gone =>
    refine ⟨fun w mem same => ?_, by rintro _ ⟨⟩⟩
    obtain ⟨before, there, rfl⟩ := List.mem_map.1 mem
    have kept := asks before there
    by_cases left : before.id = gone
    · rw [if_pos left] at same ⊢
      exact kept same
    · rw [if_neg left] at same ⊢
      exact kept same
  | withdraw withdrew =>
    refine ⟨fun w mem same => asks w ?_ same, by rintro _ ⟨⟩⟩
    rw [withdrew.waiters] at mem
    exact List.mem_of_mem_eraseP mem
  | pass =>
    have tickets := (serve_tickets b.terms now (b.volumeAt now) b.waiters).subset
    have asked {other : Nat} {wanted : α}
        (mem : (other, wanted) ∈ b.waiters.map fun w => (w.id, w.requested)) (same : other = id) :
        wanted = amount := by
      obtain ⟨w, there, pair⟩ := List.mem_map.1 mem
      obtain ⟨rfl, rfl⟩ := Prod.mk.inj pair
      exact asks w there same
    constructor
    · intro w mem same
      exact asked (tickets (List.mem_append_right _ (List.mem_map_of_mem mem))) same
    · intro r mem same _
      exact asked (tickets (List.mem_append_left _ (List.mem_map_of_mem mem))) same
  | denyAll =>
    constructor
    · intro w mem
      simp [denyAll] at mem
    · intro r mem _ granted
      obtain ⟨w, -, rfl⟩ := List.mem_map.1 mem
      cases granted

section

variable {b b' : Bucket τ α} {amount : α} {now : τ}

theorem perform_of_request {reply : Reply τ α} (told : b.request amount now = (reply, b')) :
    b.perform now (.request amount) = (b', .answered reply) := by
  rw [perform, told]

theorem amount_of_settled {grant : Grant τ α}
    (told : b.request amount now = (.settled grant, b')) (granted : grant.granted = true) :
    grant.amount = amount := by
  have requested := b.requested amount now
  rw [told] at requested
  cases requested with
  | refused | hopeless => cases granted
  | granted => rfl

theorem waits_of_queued {id : Nat} (told : b.request amount now = (.queued id, b')) :
    b'.Waits id := by
  have requested := b.requested amount now
  rw [told] at requested
  cases requested with
  | queued => exact ⟨_, List.mem_append_right _ (List.mem_singleton_self _), rfl, rfl⟩

theorem Numbered.asks_of_queued (numbered : b.Numbered) {id : Nat}
    (told : b.request amount now = (.queued id, b')) : b'.Asks id amount := by
  have requested := b.requested amount now
  rw [told] at requested
  cases requested with
  | queued =>
    intro w mem same
    rcases List.mem_append.1 mem with mem | new
    · have old := numbered.lt (List.mem_map_of_mem mem)
      exact absurd same (Nat.ne_of_lt old)
    · obtain rfl := List.mem_singleton.1 new
      rfl

/-! A request is one of the actions, so what holds for all of them holds for it. -/

variable {reply : Reply τ α}

theorem Numbered.request (numbered : b.Numbered) (told : b.request amount now = (reply, b')) :
    b'.Numbered := by
  have performed := numbered.perform now (.request amount)
  rwa [perform_of_request told] at performed

theorem request_terms (told : b.request amount now = (reply, b')) : b'.terms = b.terms := by
  have same := b.perform_terms now (.request amount)
  rwa [perform_of_request told] at same

theorem nextId_le_request (told : b.request amount now = (reply, b')) : b.nextId ≤ b'.nextId := by
  have grows := b.nextId_le_perform now (.request amount)
  rwa [perform_of_request told] at grows

theorem mem_line_of_request (told : b.request amount now = (reply, b')) {id : Nat}
    (old : id < b.nextId) (there : id ∈ b'.line) : id ∈ b.line := by
  have performed : id ∈ (b.perform now (.request amount)).1.line := by
    rwa [perform_of_request told]
  exact mem_line_of_perform old performed

end

end Turnstile.Metering.Bucket
