import Turnstile.Proofs.Metering.Setup
import Turnstile.Proofs.Settings.Fitting
import Turnstile.Proofs.Settings.FlowText

namespace Turnstile.Settings

open Data Metering Read

/-- Whatever can be read with `read?` has a property. -/
def Finds {α : Type} (read? : Value → Option α) (P : α → Prop) : Prop :=
  ∀ v a, read? v = some a → P a

section

variable {α : Type} {read? : Value → Option α} {P : α → Prop} (finds : Finds read? P)
  {fields : List (String × Value)} {name : String}
include finds

theorem Finds.required {a : α} (read : required? fields name read? = some a) : P a := by
  obtain ⟨v, -, found⟩ := Option.bind_eq_some_iff.1 read
  exact finds v a found

theorem Finds.optional {o : Option α} (read : optional? fields name read? = some o) {a : α}
    (given : o = some a) : P a := by
  subst given
  unfold optional? at read
  split at read
  · cases read
  · cases read
  · next v _ _ =>
    obtain ⟨_, found, same⟩ := Option.map_eq_some_iff.1 read
    cases same
    exact finds v a found

theorem Finds.defaulted {default a : α} (read : defaulted? fields name read? default = some a)
    (default_has : P default) : P a := by
  unfold defaulted? at read
  split at read
  · cases read
    exact default_has
  · next v _ => exact finds v a read

end

theorem finds_record {α : Type} {read? : List (String × Value) → Option α} {P : α → Prop}
    (finds : ∀ fields a, read? fields = some a → P a) : Finds (record? read?) P := by
  intro v a read
  unfold record? at read
  split at read
  · next fields => exact finds fields a read
  · cases read

def Spelled (r : FlowRate Float) : Prop := FlowRate.parse r.text = .ok r

theorem finds_flowRate : Finds flowRate? Spelled := by
  intro v r read
  unfold flowRate? at read
  split at read
  · next text =>
    cases parsed : FlowRate.parse (α := Float) text with
    | error e =>
      rw [parsed] at read
      cases read
    | ok r' =>
      rw [parsed] at read
      cases read
      exact FlowRate.parse_text parsed
  · cases read

theorem finds_bucket : Finds bucket? fun c => Spelled c.flowRate := by
  refine finds_record fun fields c read => ?_
  simp only [Option.bind_eq_bind, Option.bind_eq_some_iff] at read
  obtain ⟨flowRate, rate, _, _, _, _, _, _, _, _, _, _, made⟩ := read
  cases made
  exact finds_flowRate.required rate

theorem finds_limits :
    Finds limits? fun l => ∀ gate c, l.bucket? gate = some c → Spelled c.flowRate := by
  refine finds_record fun fields l read => ?_
  simp only [Option.bind_eq_bind, Option.bind_eq_some_iff] at read
  obtain ⟨_, connections, _, requests, _, data, made⟩ := read
  cases made
  intro gate c there
  cases gate with
  | connections => exact finds_bucket.optional connections there
  | requests => exact finds_bucket.optional requests there
  | data => exact finds_bucket.optional data there

theorem finds_settings :
    Finds ofValue? fun s => ∀ gate c, s.limits.bucket? gate = some c → Spelled c.flowRate := by
  refine finds_record fun fields s read => ?_
  simp only [Option.bind_eq_bind, Option.bind_eq_some_iff] at read
  obtain ⟨_, _, _, _, _, _, _, _, _, limited, made⟩ := read
  cases made
  exact finds_limits.defaulted limited fun gate c there => by cases gate <;> cases there

theorem load_eq_ok_iff {v : Value} {s : Settings} :
    load v = .ok s ↔ ofValue? v = some s ∧ s.fault? = none := by
  unfold load
  cases ofValue? v with
  | none => simp
  | some s' =>
    simp only [Option.some.injEq]
    constructor
    · intro loaded
      split at loaded
      · cases loaded
      · next checked =>
        cases loaded
        exact ⟨rfl, checked⟩
    · rintro ⟨rfl, checked⟩
      rw [checked]

section

variable {v : Value} {s : Settings} (loaded : load v = .ok s) {gate : Gate}
  {c : BucketSettings Float}
include loaded

theorem spelled_of_load (there : s.limits.bucket? gate = some c) : Spelled c.flowRate :=
  finds_settings v s (load_eq_ok_iff.1 loaded).1 gate c there

theorem solid_of_load : s.limits.Solid := by
  obtain ⟨-, -, -, -, buckets, -⟩ := fault?_eq_none_iff.1 (load_eq_ok_iff.1 loaded).2
  intro gate c there
  exact ⟨bucketFault?_eq_none_iff.1 buckets gate c there,
    FlowRate.parse_rate (spelled_of_load loaded there)⟩

end

end Turnstile.Settings
