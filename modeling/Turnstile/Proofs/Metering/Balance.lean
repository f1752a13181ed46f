import Turnstile.Proofs.Metering.Outlet

/-!
# What is paid for is written or kept

A stream is in balance if all that was granted to it is written or kept as credit, and its ticket is
for the one request that it may have in line. Attempts to write keep it in balance, whatever the
stream below answers, and so does all that others do (`Balanced.run`).
-/

namespace Turnstile.Metering

open Quantity

/-- Amounts of so many bytes are counted without rounding. -/
def Quantity.CountsBytes (α : Type) [Quantity α] : Prop :=
  ∀ n < 2 ^ 53, whole (ofNat n : α) = n

/-- Never more bytes are written than there are. -/
theorem Meter.write_count_le {α ε : Type} [Quantity α] (m : Meter) (t : Terms α) (length : Nat)
    (status : GrantStatus) (below : Nat → Offer ε) :
    (m.write (some t) length status (Offer.bounded below)).1.count ≤ length := by
  have fits (m : Meter) : (m.offer length (Offer.bounded below)).1.count ≤ length := by
    rw [offer_bounded]
    exact Nat.le_trans (count_answer_le below _) (Nat.min_le_right _ _)
  unfold write
  dsimp only
  split
  · exact Nat.le_trans (count_answer_le below 0) (Nat.zero_le _)
  · split
    · exact fits m
    · cases status with
      | waiting | denied => exact Nat.zero_le _
      | granted => exact fits _

namespace Outlet

variable {τ α β ε : Type} [Quantity α]

/-! ### What is paid -/

theorem paid_append (grants more : List (Grant τ α)) :
    paid (grants ++ more) = paid grants + paid more := by
  simp [paid]

theorem paid_denied {grant : Grant τ α} (no : grant.granted = false) : paid [grant] = 0 := by
  simp [paid, no]

theorem paid_granted {grant : Grant τ α} (yes : grant.granted = true) :
    paid [grant] = whole grant.amount := by
  simp [paid, yes]

/-! ### Balance -/

/-- What is paid for is written or kept as credit, and the stream has no request in line but the
one that its ticket is for. -/
structure Balanced (x : Outlet τ α β) : Prop where
  numbered : x.bucket.Numbered
  balance : x.written.length + x.meter.credit = paid x.received
  idle : x.meter.outstanding = none → x.ticket = .none
  /-- Nobody asks who has credit, and the ticket is for what the meter waits for. -/
  asking : ∀ size, x.meter.outstanding = some size →
    x.meter.credit = 0 ∧ 0 < size ∧ size < 2 ^ 53 ∧ x.ticket.IsFor x.bucket size
  asked : ∀ id, x.ticket = .waiting id → id ∈ x.asked
  /-- Requests that were made before are not in line any more. -/
  own : ∀ id ∈ x.asked, id < x.bucket.nextId ∧ (id ∈ x.bucket.line → x.ticket = .waiting id)

/-- A stream that has not been used is balanced. -/
theorem balanced_on {b : Bucket τ α} (numbered : b.Numbered) :
    (Outlet.on b : Outlet τ α β).Balanced where
  numbered := numbered
  balance := rfl
  idle _ := rfl
  asking := nofun
  asked := nofun
  own := nofun

variable {x : Outlet τ α β}

section

variable (balanced : x.Balanced)
include balanced

theorem Balanced.map {γ : Type} (spell : β → γ) : (x.map spell).Balanced :=
  ⟨balanced.numbered, by rw [Outlet.map, List.length_map, balanced.balance], balanced.idle,
    balanced.asking, balanced.asked, balanced.own⟩

theorem Balanced.unasked (ticket : x.ticket = .none) : x.meter.outstanding = none := by
  cases outstanding : x.meter.outstanding with
  | none => rfl
  | some size =>
    obtain ⟨-, -, -, isFor⟩ := balanced.asking size outstanding
    rw [ticket] at isFor
    exact isFor.elim

theorem Balanced.idle_of_credit (credit : 0 < x.meter.credit) :
    x.meter.outstanding = none ∧ x.ticket = .none := by
  cases outstanding : x.meter.outstanding with
  | none => exact ⟨rfl, balanced.idle outstanding⟩
  | some size =>
    have := (balanced.asking size outstanding).1
    omega

theorem Balanced.credit_of_asked (asked : x.ticket ≠ .none) : x.meter.credit = 0 := by
  refine Nat.eq_zero_of_not_pos fun credit => ?_
  exact asked (balanced.idle_of_credit credit).2

/-- A grant is for as many bytes as the meter waits for. -/
theorem Balanced.whole_amount (exactly : CountsBytes α) {grant : Grant τ α} {size : Nat}
    (answered : x.ticket = .answered grant) (yes : grant.granted = true)
    (asking : x.meter.outstanding = some size) : whole grant.amount = size := by
  obtain ⟨-, -, small, isFor⟩ := balanced.asking size asking
  rw [answered] at isFor
  rw [isFor yes, exactly size small]

theorem Balanced.waits {id : Nat} (waiting : x.ticket = .waiting id) : x.bucket.Waits id := by
  cases outstanding : x.meter.outstanding with
  | none =>
    have idle := balanced.idle outstanding
    rw [waiting] at idle
    cases idle
  | some size =>
    obtain ⟨-, -, -, isFor⟩ := balanced.asking size outstanding
    rw [waiting] at isFor
    exact isFor.1

/-- The only request that the stream has in line is the one that its ticket is for. -/
theorem Balanced.own_eq : x.own = x.ticket.number?.toList := by
  have distinct : x.bucket.line.Nodup := balanced.numbered.nodup List.nodup_range
  cases ticket : x.ticket with
  | none | answered =>
    refine List.filter_eq_nil_iff.2 fun id line mem => ?_
    have waiting := (balanced.own id (by simpa using mem)).2 line
    rw [ticket] at waiting
    cases waiting
  | waiting id =>
    have there := (balanced.waits ticket).mem_line
    have same : x.own = x.bucket.line.filter (· == id) := by
      refine List.filter_congr fun other line => ?_
      rw [Bool.eq_iff_iff, List.contains_iff_mem, beq_iff_eq]
      constructor
      · intro mem
        have waiting := (balanced.own other mem).2 line
        rw [ticket] at waiting
        exact (Ticket.waiting.inj waiting).symm
      · rintro rfl
        exact balanced.asked other ticket
    rw [same, List.filter_beq, List.count_eq_one_of_mem distinct there]
    rfl

end

/-! ### Attempts -/

/-- A stream that has asked for a grant if it has to have one for so many bytes. -/
def Ready (x : Outlet τ α β) (length : Nat) : Prop :=
  length ≠ 0 → x.meter.credit = 0 → x.meter.outstanding ≠ none

inductive Attempted (x : Outlet τ α β) (bytes : List β) (below : Nat → Offer ε) :
    Attempt ε × Outlet τ α β → Prop where
  | nothing (empty : bytes = []) : Attempted x bytes below (Meter.answer below 0, x)
  | spent {answer : Attempt ε} (filled : bytes ≠ []) (credit : 0 < x.meter.credit)
      (offered : Meter.answer below (min x.meter.credit bytes.length) = answer) :
      Attempted x bytes below (answer, { x with
        meter := { x.meter with credit := x.meter.credit - answer.count }
        written := x.written ++ bytes.take answer.count })
  | waits {id : Nat} (filled : bytes ≠ []) (waiting : x.ticket = .waiting id) :
      Attempted x bytes below (.pending, x)
  | denied {grant : Grant τ α} (filled : bytes ≠ []) (answered : x.ticket = .answered grant)
      (no : grant.granted = false) : Attempted x bytes below (.denied, { x with
        meter := {}, ticket := .none, received := x.received ++ [grant] })
  | granted {grant : Grant τ α} {size : Nat} {answer : Attempt ε} (filled : bytes ≠ [])
      (answered : x.ticket = .answered grant) (yes : grant.granted = true)
      (asked : x.meter.outstanding = some size)
      (offered : Meter.answer below (min size bytes.length) = answer) :
      Attempted x bytes below (answer, { x with
        meter := ⟨size - answer.count, none⟩
        ticket := .none
        received := x.received ++ [grant]
        written := x.written ++ bytes.take answer.count })

section

variable {bytes : List β} {below : Nat → Offer ε} {outcome : Attempt ε} {meter : Meter}
  (wrote : x.meter.write (some x.bucket.terms) bytes.length x.ticket.status
    (Offer.bounded below) = (outcome, meter))
include wrote

/-- An attempt after which nothing is asked for has taken note of the answer. -/
theorem attempt_of_idle (idle : meter.outstanding = none) :
    x.attempt bytes below = (outcome, { x with
      meter, written := x.written ++ bytes.take outcome.count
      ticket := .none, received := x.received ++ x.ticket.grants }) := by
  unfold attempt
  rw [wrote]
  dsimp only
  rw [idle]

theorem attempt_of_asking {size : Nat} (asking : meter.outstanding = some size) :
    x.attempt bytes below = (outcome, { x with
      meter, written := x.written ++ bytes.take outcome.count }) := by
  unfold attempt
  rw [wrote]
  dsimp only
  rw [asking]

end

/-! An attempt with nothing to write, with credit, and with a request that has been made. -/

theorem Balanced.attempted_nothing (balanced : x.Balanced) (below : Nat → Offer ε) :
    Attempted x [] below (x.attempt [] below) := by
  have wrote : x.meter.write (some x.bucket.terms) ([] : List β).length x.ticket.status
      (Offer.bounded below) = (Meter.answer below 0, x.meter) := rfl
  have same : x.attempt [] below = (Meter.answer below 0, x) := by
    cases outstanding : x.meter.outstanding with
    | none =>
      have idle := balanced.idle outstanding
      obtain ⟨bucket, meter, ticket, written, received, asked⟩ := x
      obtain rfl : ticket = .none := idle
      rw [attempt_of_idle wrote outstanding]
      simp [Ticket.grants]
    | some size => rw [attempt_of_asking wrote outstanding, List.take_nil, List.append_nil]
  rw [same]
  exact .nothing rfl

theorem Balanced.attempted_spent (balanced : x.Balanced) {bytes : List β} (filled : bytes ≠ [])
    (credit : 0 < x.meter.credit) (below : Nat → Offer ε) :
    Attempted x bytes below (x.attempt bytes below) := by
  have length : bytes.length ≠ 0 := by simpa using filled
  have wrote : x.meter.write (some x.bucket.terms) bytes.length x.ticket.status
      (Offer.bounded below) = x.meter.offer bytes.length (Offer.bounded below) := by
    simp only [Meter.write, if_neg length, if_pos credit]
  rw [Meter.offer_bounded] at wrote
  have spent : Attempted x bytes below _ := .spent filled credit rfl
  obtain ⟨outstanding, idle⟩ := balanced.idle_of_credit credit
  rw [attempt_of_idle wrote outstanding]
  obtain ⟨bucket, meter, ticket, written, received, asked⟩ := x
  obtain rfl : ticket = .none := idle
  simpa [Ticket.grants] using spent

theorem Balanced.attempted_asking (balanced : x.Balanced) {bytes : List β} (filled : bytes ≠ [])
    {size : Nat} (asking : x.meter.outstanding = some size) (below : Nat → Offer ε) :
    Attempted x bytes below (x.attempt bytes below) := by
  have length : bytes.length ≠ 0 := by simpa using filled
  obtain ⟨credit, -, -, isFor⟩ := balanced.asking size asking
  have meter : x.meter = ⟨0, some size⟩ := by rw [← credit, ← asking]
  cases ticket : x.ticket with
  | none =>
    rw [ticket] at isFor
    exact isFor.elim
  | waiting id =>
    have wrote : x.meter.write (some x.bucket.terms) bytes.length x.ticket.status
        (Offer.bounded below) = (.pending, x.meter) := by
      rw [meter, ticket]
      simp [Meter.write, length, Ticket.status]
    have waits : Attempted x bytes below (.pending, x) := .waits filled ticket
    rw [attempt_of_asking wrote asking]
    simpa [Attempt.count] using waits
  | answered grant =>
    by_cases yes : grant.granted = true
    · have wrote : x.meter.write (some x.bucket.terms) bytes.length x.ticket.status
          (Offer.bounded below) =
            (⟨size, none⟩ : Meter).offer bytes.length (Offer.bounded below) := by
        rw [meter, ticket]
        simp [Meter.write, length, Ticket.status, yes]
      rw [Meter.offer_bounded] at wrote
      rw [attempt_of_idle wrote rfl, ticket]
      exact .granted filled ticket yes asking rfl
    · have no : grant.granted = false := by simpa using yes
      have wrote : x.meter.write (some x.bucket.terms) bytes.length x.ticket.status
          (Offer.bounded below) = (.denied, {}) := by
        rw [meter, ticket]
        simp [Meter.write, length, Ticket.status, no]
      have denied : Attempted x bytes below _ := .denied filled ticket no
      rw [attempt_of_idle wrote rfl, ticket]
      simpa [Attempt.count, Ticket.grants] using denied

theorem Balanced.attempted (balanced : x.Balanced) {bytes : List β} (ready : x.Ready bytes.length)
    (below : Nat → Offer ε) : Attempted x bytes below (x.attempt bytes below) := by
  by_cases filled : bytes = []
  · rw [filled]
    exact balanced.attempted_nothing below
  · by_cases credit : 0 < x.meter.credit
    · exact balanced.attempted_spent filled credit below
    · have length : bytes.length ≠ 0 := by simpa using filled
      have outstanding := ready length (Nat.eq_zero_of_not_pos credit)
      obtain ⟨size, asking⟩ := Option.ne_none_iff_exists'.1 outstanding
      exact balanced.attempted_asking filled asking below

/-- Bytes are written in order, and only those that are reported, whatever the stream's state. -/
theorem attempt_written (x : Outlet τ α β) (bytes : List β) (below : Nat → Offer ε) :
    (x.attempt bytes below).1.count ≤ bytes.length ∧
      (x.attempt bytes below).2.written =
        x.written ++ bytes.take (x.attempt bytes below).1.count := by
  have fits := x.meter.write_count_le x.bucket.terms bytes.length x.ticket.status below
  unfold attempt
  dsimp only
  split <;> exact ⟨fits, rfl⟩

structure Spends (x : Outlet τ α β) (bytes : List β) (below : Nat → Offer ε)
    (taken : List (Grant τ α)) (o : Attempt ε × Outlet τ α β) : Prop where
  one : taken.length ≤ 1
  received : o.2.received = x.received ++ taken
  pos : ∀ grant ∈ taken, grant.granted = true → 0 < whole grant.amount
  denied : o.1 = .denied ↔ ∃ grant ∈ taken, grant.granted = false
  /-- All that is paid for is offered, and the answer is handed on. -/
  offered : bytes ≠ [] → 0 < x.meter.credit + paid taken →
    o.1 = Meter.answer below (min (x.meter.credit + paid taken) bytes.length)
  /-- What is not written is kept. -/
  balance : o.1.count + o.2.meter.credit = x.meter.credit + paid taken

theorem Spends.of_none {bytes : List β} {below : Nat → Offer ε} {o : Attempt ε × Outlet τ α β}
    (received : o.2.received = x.received) (undenied : o.1 ≠ .denied)
    (offered : bytes ≠ [] → 0 < x.meter.credit →
      o.1 = Meter.answer below (min x.meter.credit bytes.length))
    (balance : o.1.count + o.2.meter.credit = x.meter.credit) : Spends x bytes below [] o where
  one := Nat.zero_le 1
  received := received.trans (List.append_nil _).symm
  pos := nofun
  denied := iff_of_false undenied (by rintro ⟨_, ⟨⟩, -⟩)
  offered := offered
  balance := balance

theorem Attempted.spends (exactly : CountsBytes α) (balanced : x.Balanced) {bytes : List β}
    {below : Nat → Offer ε} {o : Attempt ε × Outlet τ α β}
    (attempted : Attempted x bytes below o) : ∃ taken, Spends x bytes below taken o := by
  cases attempted with
  | nothing empty =>
    refine ⟨[], .of_none rfl (Meter.answer_ne_denied below 0)
      (fun filled => absurd empty filled) ?_⟩
    have unwritten := Meter.count_answer_le below 0
    dsimp only
    omega
  | spent filled credit offered =>
    have fits := Meter.count_answer_le below (min x.meter.credit bytes.length)
    have undenied := Meter.answer_ne_denied below (min x.meter.credit bytes.length)
    rw [offered] at fits undenied
    refine ⟨[], .of_none rfl undenied (fun _ _ => offered.symm) ?_⟩
    dsimp only
    omega
  | waits filled waiting =>
    have credit := balanced.credit_of_asked (by simp [waiting])
    refine ⟨[], .of_none rfl nofun (fun _ some => ?_) (Nat.zero_add _)⟩
    omega
  | @denied grant filled answered no =>
    have credit := balanced.credit_of_asked (by simp [answered])
    have nothing : x.meter.credit + paid [grant] = 0 := by rw [credit, paid_denied no]
    refine ⟨[grant], Nat.le_refl 1, rfl, by simp [no], by simp [no], ?_, nothing.symm⟩
    intro _ some
    omega
  | @granted grant size answer filled answered yes asking offered =>
    obtain ⟨credit, pos, -⟩ := balanced.asking size asking
    have amount := balanced.whole_amount exactly answered yes asking
    have all : x.meter.credit + paid [grant] = size := by
      rw [credit, paid_granted yes, amount, Nat.zero_add]
    have fits := Meter.count_answer_le below (min size bytes.length)
    have undenied := Meter.answer_ne_denied below (min size bytes.length)
    rw [offered] at fits undenied
    refine ⟨[grant], Nat.le_refl 1, rfl, by simp [amount, pos], by simp [undenied, yes], ?_, ?_⟩
    · intro _ _
      rw [all]
      exact offered.symm
    · rw [all]
      dsimp only
      omega

/-- Once the stream has taken note of an answer nothing of its own is in line. -/
theorem Balanced.conclude (balanced : x.Balanced) {grant : Grant τ α}
    (answered : x.ticket = .answered grant) {meter : Meter} (idle : meter.outstanding = none)
    {written : List β} (balance : written.length + meter.credit = paid (x.received ++ [grant])) :
    Balanced { x with meter, ticket := .none, written, received := x.received ++ [grant] } where
  numbered := balanced.numbered
  balance := balance
  idle _ := rfl
  asking size asking := by
    rw [idle] at asking
    cases asking
  asked := nofun
  own id mem := by
    obtain ⟨old, there⟩ := balanced.own id mem
    refine ⟨old, fun line => ?_⟩
    have waiting := there line
    rw [answered] at waiting
    cases waiting

theorem Balanced.attempt (exactly : CountsBytes α) (balanced : x.Balanced) {bytes : List β}
    (ready : x.Ready bytes.length) (below : Nat → Offer ε) :
    (x.attempt bytes below).2.Balanced := by
  have attempted := balanced.attempted ready below
  obtain ⟨fits, appended⟩ := x.attempt_written bytes below
  obtain ⟨taken, spends⟩ := attempted.spends exactly balanced
  have spent := spends.balance
  have before := balanced.balance
  have balance : (x.attempt bytes below).2.written.length +
      (x.attempt bytes below).2.meter.credit = paid (x.attempt bytes below).2.received := by
    rw [appended, spends.received, paid_append, List.length_append, List.length_take]
    omega
  clear fits appended spends spent
  generalize x.attempt bytes below = outcome at attempted balance ⊢
  cases attempted with
  | nothing | waits => exact balanced
  | spent filled credit =>
    refine { balanced with balance := balance, asking := ?_ }
    intro size asking
    have := (balanced.asking size asking).1
    omega
  | denied filled answered => exact balanced.conclude answered rfl balance
  | granted filled answered => exact balanced.conclude answered rfl balance

variable [Clock τ α]

/-! ### Asking -/

theorem Balanced.ready_ask (balanced : x.Balanced) (now : τ) (length : Nat) :
    (x.ask now length).Ready length := by
  have asked := x.asked_ask now length
  generalize x.ask now length = y at asked ⊢
  intro filled credit
  cases asked with
  | spared ready =>
    intro idle
    have unasked := balanced.idle idle
    rcases ready with asked | empty | some
    · exact asked unasked
    · exact filled empty
    · omega
  | answered | queued => exact nofun

/-- Asking for a grant keeps a stream balanced, whatever is answered. -/
theorem Balanced.ask (balanced : x.Balanced) (now : τ) {length : Nat} (short : length < 2 ^ 53) :
    (x.ask now length).Balanced := by
  have asked := x.asked_ask now length
  have balance := balanced.balance
  generalize x.ask now length = y at asked ⊢
  -- no old request of the stream is in line when it makes a new one
  have gone (unasked : x.ticket = .none) {size : Nat} {bucket : Bucket τ α} {reply : Reply τ α}
      (told : x.bucket.request (ofNat size) now = (reply, bucket)) :
      ∀ id ∈ x.asked, id < bucket.nextId ∧ id ∉ bucket.line := by
    intro id mem
    obtain ⟨old, there⟩ := balanced.own id mem
    refine ⟨Nat.lt_of_lt_of_le old (Bucket.nextId_le_request told), fun line => ?_⟩
    have waiting := there (Bucket.mem_line_of_request told old line)
    rw [unasked] at waiting
    cases waiting
  cases asked with
  | spared => exact balanced
  | answered unasked pos within credit told =>
    have numbered := balanced.numbered.request told
    refine ⟨numbered, ?_, nofun, ?_, nofun, fun id mem => ?_⟩
    · dsimp only
      omega
    · rintro _ ⟨⟩
      exact ⟨rfl, pos, by omega, Bucket.amount_of_settled told⟩
    · obtain ⟨old, gone⟩ := gone unasked told id mem
      exact ⟨old, fun line => absurd line gone⟩
  | queued unasked pos within credit told =>
    have numbered := balanced.numbered.request told
    have waits := Bucket.waits_of_queued told
    refine ⟨numbered, ?_, nofun, ?_, ?_, fun id mem => ?_⟩
    · dsimp only
      omega
    · rintro _ ⟨⟩
      exact ⟨rfl, pos, by omega, waits, balanced.numbered.asks_of_queued told⟩
    · rintro _ ⟨⟩
      exact List.mem_append_right _ (List.mem_singleton_self _)
    · rcases List.mem_append.1 mem with mem | new
      · obtain ⟨old, gone⟩ := gone unasked told id mem
        exact ⟨old, fun line => absurd line gone⟩
      · obtain rfl := List.mem_singleton.1 new
        exact ⟨numbered.lt waits.mem_line, fun _ => rfl⟩

/-! ### Others -/

theorem Balanced.act (balanced : x.Balanced) (now : τ) (a : Bucket.Action α) :
    (x.act now a).Balanced := by
  unfold Outlet.act
  split
  · exact balanced
  · next kept =>
    have kept : x.ticket.number?.any a.givesUp = false := by simpa [givenUp] using kept
    have numbered := balanced.numbered
    refine ⟨numbered.perform now a, balanced.balance, ?_, ?_, ?_, ?_⟩
    · intro idle
      simp [balanced.idle idle, Ticket.settle]
    · intro size asking
      obtain ⟨credit, pos, small, isFor⟩ := balanced.asking size asking
      exact ⟨credit, pos, small, isFor.settle numbered now kept⟩
    · intro id waiting
      exact balanced.asked id (Ticket.settle_eq_waiting_iff.1 waiting).1
    · intro id mem
      obtain ⟨old, there⟩ := balanced.own id mem
      refine ⟨Nat.lt_of_lt_of_le old (x.bucket.nextId_le_perform now a), fun line => ?_⟩
      have waiting := there (Bucket.mem_line_of_perform old line)
      refine Ticket.settle_eq_waiting_iff.2 ⟨waiting, fun sent => ?_⟩
      exact numbered.not_mem_line sent line

theorem Balanced.acts (balanced : x.Balanced) (steps : List (τ × Bucket.Action α)) :
    (x.acts steps).Balanced := by
  induction steps generalizing x with
  | nil => exact balanced
  | cons s rest ih => exact ih (balanced.act s.1 s.2)

theorem Balanced.step (exactly : CountsBytes α) (balanced : x.Balanced) (now : τ)
    {e : Event α β ε} (short : e.Short) : (x.step now e).Balanced := by
  cases e with
  | act a => exact balanced.act now a
  | write bytes below =>
    exact (balanced.ask now short).attempt exactly (balanced.ready_ask now bytes.length) below

theorem Balanced.run (exactly : CountsBytes α) (balanced : x.Balanced)
    {events : List (τ × Event α β ε)} (short : ∀ e ∈ events, e.2.Short) :
    (x.run events).Balanced := by
  induction events generalizing x with
  | nil => exact balanced
  | cons e rest ih =>
    obtain ⟨first, rest⟩ := List.forall_mem_cons.1 short
    exact ih (balanced.step exactly e.1 first) rest

end Outlet

end Turnstile.Metering
