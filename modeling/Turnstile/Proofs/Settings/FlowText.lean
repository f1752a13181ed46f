import Mathlib.Data.List.DropRight
import Turnstile.Metering.FlowRate

namespace Turnstile

namespace Text

theorem trimStart_trimStart (text : List Char) : trimStart (trimStart text) = trimStart text :=
  List.dropWhile_idempotent isBlank text

theorem trimEnd_trimEnd (text : List Char) : trimEnd (trimEnd text) = trimEnd text :=
  List.rdropWhile_idempotent isBlank text

section

variable {c : Char} (solid : isBlank c = false) (front rest : List Char)
include solid

/-- A character that is no blank stops both trims. -/
theorem trimStart_append_cons : trimStart (front ++ c :: rest) = trimStart front ++ c :: rest := by
  unfold trimStart
  rw [List.dropWhile_append]
  split
  · next gone => rw [List.isEmpty_iff.1 gone, List.dropWhile_cons_of_neg (by simp [solid])]; rfl
  · rfl

theorem trimEnd_append_cons : trimEnd (front ++ c :: rest) = front ++ c :: trimEnd rest := by
  have turned := trimStart_append_cons solid rest.reverse front.reverse
  unfold trimEnd
  rw [List.reverse_append, List.reverse_cons, List.append_assoc, List.singleton_append, turned]
  simp

theorem trim_append_cons :
    trim (front ++ c :: rest) = trimStart front ++ c :: trimEnd rest := by
  unfold trim
  rw [trimStart_append_cons solid, trimEnd_append_cons solid]

end

/-- A text is blank, or has something in it that is not. -/
theorem blank_or_solid (text : List Char) :
    (∀ c ∈ text, isBlank c = true) ∨
      ∃ front c rest, isBlank c = false ∧ text = front ++ c :: rest := by
  by_cases blank : ∀ c ∈ text, isBlank c = true
  · exact .inl blank
  · push Not at blank
    obtain ⟨c, mem, solid⟩ := blank
    obtain ⟨front, rest, rfl⟩ := List.append_of_mem mem
    exact .inr ⟨front, c, rest, by simpa using solid, rfl⟩

theorem trimStart_of_blank {text : List Char} (blank : ∀ c ∈ text, isBlank c = true) :
    trimStart text = [] :=
  List.dropWhile_eq_nil_iff.2 blank

theorem trim_of_blank {text : List Char} (blank : ∀ c ∈ text, isBlank c = true) :
    trim text = [] := by
  unfold trim
  rw [trimStart_of_blank blank]
  rfl

theorem trim_trimStart (text : List Char) : trim (trimStart text) = trim text := by
  unfold trim
  rw [trimStart_trimStart]

theorem trim_trimEnd (text : List Char) : trim (trimEnd text) = trim text := by
  rcases blank_or_solid text with blank | ⟨front, c, rest, solid, rfl⟩
  · have left : ∀ c ∈ trimEnd text, isBlank c = true := fun c mem =>
      blank c ((List.rdropWhile_prefix isBlank text).subset mem)
    rw [trim_of_blank left, trim_of_blank blank]
  · rw [trimEnd_append_cons solid, trim_append_cons solid, trim_append_cons solid, trimEnd_trimEnd]

theorem trim_trim (text : List Char) : trim (trim text) = trim text := by
  have outer : trim (trim text) = trim (trimStart text) := trim_trimEnd (trimStart text)
  rw [outer, trim_trimStart]

theorem trim_subset (text : List Char) : trim text ⊆ text := fun _ mem =>
  (List.dropWhile_sublist isBlank).subset ((List.rdropWhile_prefix isBlank _).subset mem)

end Text

namespace Metering.FlowRate

open Text

theorem splitSlash?_eq_some_iff {text amount unit : List Char} :
    splitSlash? text = some (amount, unit) ↔ '/' ∉ amount ∧ text = amount ++ '/' :: unit := by
  induction text generalizing amount with
  | nil => simp [splitSlash?]
  | cons c rest ih =>
    unfold splitSlash?
    split
    case isTrue slash =>
      subst slash
      constructor
      · rintro ⟨⟩
        exact ⟨List.not_mem_nil, rfl⟩
      · rintro ⟨free, written⟩
        cases amount with
        | nil =>
          cases written
          rfl
        | cons first more =>
          cases written
          exact absurd List.mem_cons_self free
    case isFalse other =>
      constructor
      · intro split
        obtain ⟨⟨front, unit'⟩, found, pair⟩ := Option.map_eq_some_iff.1 split
        cases pair
        obtain ⟨free, rfl⟩ := ih.1 found
        exact ⟨by simp [free, Ne.symm other], rfl⟩
      · rintro ⟨free, written⟩
        cases amount with
        | nil =>
          cases written
          exact absurd rfl other
        | cons first more =>
          cases written
          have found := ih.2 ⟨fun mem => free (List.mem_cons_of_mem _ mem), rfl⟩
          rw [found]
          rfl

theorem splitSlash?_eq_none_iff {text : List Char} : splitSlash? text = none ↔ '/' ∉ text := by
  induction text with
  | nil => simp [splitSlash?]
  | cons c rest ih =>
    unfold splitSlash?
    split
    case isTrue slash => simp [slash]
    case isFalse other => simp [ih, Ne.symm other]

/-- Each part loses its blanks on the outer side. -/
theorem splitSlash?_trim (text : List Char) :
    splitSlash? (trim text) =
      (splitSlash? text).map fun (amount, unit) => (trimStart amount, trimEnd unit) := by
  have slash : isBlank '/' = false := by decide
  cases split : splitSlash? text with
  | none =>
    have free := splitSlash?_eq_none_iff.1 split
    exact splitSlash?_eq_none_iff.2 fun mem => free (trim_subset text mem)
  | some parts =>
    obtain ⟨amount, unit⟩ := parts
    obtain ⟨free, rfl⟩ := splitSlash?_eq_some_iff.1 split
    rw [trim_append_cons slash]
    exact splitSlash?_eq_some_iff.2
      ⟨fun mem => free ((List.dropWhile_sublist isBlank).subset mem), rfl⟩

variable {α : Type} [Quantity α]

/-- Blanks at the ends do not matter. -/
theorem readRate_trim (text : List Char) :
    readRate (α := α) (trim text) = readRate text := by
  unfold readRate
  rw [splitSlash?_trim]
  cases splitSlash? text with
  | none => rfl
  | some parts =>
    obtain ⟨amount, unit⟩ := parts
    dsimp only [Option.map_some]
    rw [trim_trimStart, trim_trimEnd]

/-- A rate that is read is a positive number. -/
theorem parse_rate {text : String} {r : FlowRate α} (read : parse text = .ok r) :
    Quantity.isFinite r.perSecond = true ∧ (0 : α) < r.perSecond := by
  unfold parse at read
  split at read
  · cases read
  · next rate found =>
    cases read
    unfold readRate at found
    split at found
    · cases found
    · split at found
      · cases found
      · split at found
        · cases found
        · dsimp only at found
          split at found
          · next inside =>
            cases found
            exact (Bool.and_eq_true_iff.1 inside).imp_right of_decide_eq_true
          · cases found

/-- The text of a flow rate is read as the same flow rate, whatever numbers its amount stands
for. -/
theorem parse_text {text : String} {r : FlowRate α} (read : parse text = .ok r) :
    parse r.text = .ok r := by
  unfold parse at read ⊢
  split at read
  · cases read
  · next rate found =>
    cases read
    dsimp only
    rw [String.toList_ofList, readRate_trim, found, trim_trim]

end Metering.FlowRate

end Turnstile
