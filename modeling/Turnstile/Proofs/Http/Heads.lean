import Mathlib.Data.List.TakeWhile
import Turnstile.Http.Message

namespace Turnstile

namespace Text

variable {sep : Char} {front text : List Char}

theorem bne_of_not_mem (none : sep ∉ text) : ∀ c ∈ text, (c != sep) = true :=
  fun _ mem => bne_iff_ne.2 fun same => none (same ▸ mem)

theorem takeWhile_of_not_mem (none : sep ∉ text) : text.takeWhile (· != sep) = text :=
  List.takeWhile_eq_self_iff.2 (bne_of_not_mem none)

theorem takeWhile_append_sep (none : sep ∉ front) (rest : List Char) :
    (front ++ sep :: rest).takeWhile (· != sep) = front := by
  rw [List.takeWhile_append_of_pos (bne_of_not_mem none), List.takeWhile_cons_of_neg (by simp),
    List.append_nil]

theorem dropWhile_append_sep (none : sep ∉ front) (rest : List Char) :
    (front ++ sep :: rest).dropWhile (· != sep) = sep :: rest := by
  rw [List.dropWhile_append_of_pos (bne_of_not_mem none), List.dropWhile_cons_of_neg (by simp)]

end Text

namespace Http

/-- A text that can be sent in a header field. -/
def Sendable (text : String) : Prop :=
  ∀ c ∈ text.toList, c = '\t' ∨ 32 ≤ c.toNat ∧ c.toNat ≠ 127

theorem isValueChar_iff (c : Char) : isValueChar c ↔ c = '\t' ∨ 32 ≤ c.toNat ∧ c.toNat ≠ 127 := by
  have delete : c.val ≠ 0x7f ↔ c.toNat ≠ 127 := not_congr UInt32.toNat_inj.symm
  delta isValueChar
  simp only [Bool.or_eq_true, beq_iff_eq, Bool.and_eq_true, decide_eq_true_eq, bne_iff_ne, delete,
    UInt32.le_iff_toNat_le]
  rfl

theorem isHeaderValue_iff {text : String} : isHeaderValue text = true ↔ Sendable text := by
  rw [isHeaderValue, List.all_eq_true]
  exact forall₂_congr fun c _ => isValueChar_iff c

theorem isPlainChar_of_isAlphanum {c : Char} (h : c.isAlphanum = true) : isPlainChar c = true := by
  delta isPlainChar
  delta Char.isAlphanum Char.isAlpha Char.isUpper Char.isLower Char.isDigit at h
  simp only [Bool.or_eq_true, Bool.and_eq_true, decide_eq_true_eq, ge_iff_le,
    UInt32.le_iff_toNat_le, UInt32.lt_iff_toNat_lt] at h ⊢
  right
  have bounds : 48 ≤ c.val.toNat ∧ c.val.toNat ≤ 122 := by
    rcases h with (upper | lower) | digit
    · exact ⟨Nat.le_trans (by decide) upper.1, Nat.le_trans upper.2 (by decide)⟩
    · exact ⟨Nat.le_trans (by decide) lower.1, Nat.le_trans lower.2 (by decide)⟩
    · exact ⟨digit.1, Nat.le_trans digit.2 (by decide)⟩
  exact ⟨Nat.le_trans (by decide) bounds.1, Nat.lt_of_le_of_lt bounds.2 (by decide)⟩

namespace Uri

theorem query_not_mem_readPath {text : List Char} {path : String} {query : Option String}
    (read : readPath? text = some (path, query)) : ∀ c ∈ path.toList, c ≠ '?' ∧ c ≠ '#' := by
  have written : path = if (text.takeWhile fun c => c != '?' && c != '#').isEmpty then "/"
      else String.ofList (text.takeWhile fun c => c != '?' && c != '#') := by
    unfold readPath? at read
    dsimp only at read
    split at read
    · cases read
    · split at read
      · split at read
        · cases read
          rfl
        · cases read
      · cases read
        rfl
  rw [written]
  split
  · simp
  · intro c mem
    rw [String.toList_ofList] at mem
    simpa using List.all_eq_true.1 List.all_takeWhile c mem

/-- The path of a target ends before the query and the fragment. -/
theorem query_not_mem_path {text : String} {u : Uri} (read : parse? text = some u) :
    ∀ c ∈ u.path.toList, c ≠ '?' ∧ c ≠ '#' := by
  have ofPath {rest : List Char} {make : String × Option String → Uri}
      (paths : ∀ p, (make p).path = p.1) (read : (readPath? rest).map make = some u) :
      ∀ c ∈ u.path.toList, c ≠ '?' ∧ c ≠ '#' := by
    obtain ⟨p, found, rfl⟩ := Option.map_eq_some_iff.1 read
    rw [paths]
    exact query_not_mem_readPath found
  unfold parse? at read
  split at read
  · cases read
  · split at read
    · cases read
      simp
    · exact ofPath (fun _ => rfl) read
    · unfold readAbsolute? at read
      split at read
      · split at read
        · cases read
          simp
        · cases read
      · dsimp only at read
        split at read
        · cases read
        · exact ofPath (fun _ => rfl) read

theorem mem_of_isAuthorityFrom {s : AuthorityState} {text : List Char} {c : Char}
    (accepted : isAuthorityFrom s text = true) (mem : c ∈ text) :
    c ∈ [':', '[', ']', '@', '%'] ∨ isAuthorityChar c := by
  induction text generalizing s with
  | nil => cases mem
  | cons first rest ih =>
    unfold isAuthorityFrom at accepted
    split at accepted
    · cases accepted
    · next s' next =>
      rcases List.mem_cons.1 mem with rfl | mem
      · unfold AuthorityState.next? at next
        dsimp only at next
        split at next
        case h_6 =>
          split at next
          · next allowed => exact .inr allowed
          · cases next
        all_goals exact .inl (by simp)
      · exact ih accepted mem

/-- An authority is printable text, and nothing at which it could end is a part of it. -/
theorem chars_of_isAuthority {text : List Char} (accepted : isAuthority text = true) {c : Char}
    (mem : c ∈ text) : isPlainChar c = true ∧ endsAuthority c = false := by
  have signs : ∀ d ∈ [':', '[', ']', '@', '%'], (isPlainChar d && !endsAuthority d) = true :=
    List.all_eq_true.1 (by decide)
  have others : ∀ d ∈ "!$&'()*+,-.;=_~".toList, isPlainChar d = true :=
    List.all_eq_true.1 (by decide)
  rcases mem_of_isAuthorityFrom accepted mem with sign | allowed
  · simpa using signs c sign
  · constructor
    · unfold isAuthorityChar at allowed
      rcases Bool.or_eq_true_iff.1 allowed with alphanumeric | sign
      · exact isPlainChar_of_isAlphanum alphanumeric
      · exact others c (List.contains_iff_mem.1 sign)
    · apply Bool.eq_false_iff.2
      intro stop
      have stops : (c = '/' ∨ c = '?') ∨ c = '#' := by simpa [endsAuthority] using stop
      rcases stops with (rfl | rfl) | rfl <;> exact absurd allowed (by decide)

/-- The authority of an absolute target. -/
theorem authority_of_absolute {authority rest : String} {u : Uri}
    (accepted : isAuthority authority.toList = true)
    (read : parse? ("http://" ++ authority ++ "/" ++ rest) = some u) :
    u.authority = authority ∧ authority ≠ "" := by
  have written : ("http://" ++ authority ++ "/" ++ rest).toList =
      "http://".toList ++ (authority.toList ++ '/' :: rest.toList) := by
    simp
  have split : splitScheme? ("http://".toList ++ (authority.toList ++ '/' :: rest.toList)) =
      some ("http".toList, authority.toList ++ '/' :: rest.toList) := rfl
  have inside : ∀ c ∈ authority.toList, (!endsAuthority c) = true := by
    intro c mem
    rw [(chars_of_isAuthority accepted mem).2]
    rfl
  have cut : (authority.toList ++ '/' :: rest.toList).takeWhile (!endsAuthority ·) =
      authority.toList := by
    rw [List.takeWhile_append_of_pos inside]
    simp [endsAuthority]
  unfold parse? at read
  split at read
  · cases read
  · rw [written] at read
    split at read
    · next alone => cases alone
    · next alone => cases alone
    · unfold readAbsolute? at read
      rw [split] at read
      dsimp only at read
      rw [cut, String.ofList_toList] at read
      split at read
      · cases read
      · next fine =>
        obtain ⟨⟨path, query⟩, -, rfl⟩ := Option.map_eq_some_iff.1 read
        refine ⟨rfl, ?_⟩
        rintro rfl
        exact fine rfl

theorem authority_of_relative {rest : String} {u : Uri} (read : parse? ("/" ++ rest) = some u) :
    u.authority = "" := by
  have written : ("/" ++ rest).toList = '/' :: rest.toList := by simp
  unfold parse? at read
  rw [written] at read
  split at read
  · cases read
  · obtain ⟨⟨path, query⟩, -, rfl⟩ := Option.map_eq_some_iff.1 read
    rfl

theorem dropUser_of_not_mem {authority : List Char} (userless : '@' ∉ authority) :
    dropUser authority = authority := by
  rw [dropUser, Text.takeWhile_of_not_mem (by simpa using userless), List.reverse_reverse]

theorem AuthorityState.pending_of_next? {s s' : AuthorityState} {c : Char} (other : c ≠ ']')
    (next : s.next? c = some s') (opened : s.opened = true) (pending : s.closed = false) :
    s'.opened = true ∧ s'.closed = false := by
  unfold next? at next
  dsimp only at next
  split at next
  case h_3 => exact absurd rfl other
  case h_4 | h_5 =>
    cases next
    exact ⟨opened, pending⟩
  all_goals
    split at next
    · cases next <;> exact ⟨opened, pending⟩
    · cases next <;> exact ⟨by simp [opened], pending⟩

/-- A bracket that is opened is closed. -/
theorem closing_of_isAuthorityFrom {s : AuthorityState} {text : List Char}
    (accepted : isAuthorityFrom s text = true) (opened : s.opened = true)
    (pending : s.closed = false) : ']' ∈ text := by
  induction text generalizing s with
  | nil => simp [isAuthorityFrom, AuthorityState.mayEnd, opened, pending] at accepted
  | cons c rest ih =>
    unfold isAuthorityFrom at accepted
    split at accepted
    · cases accepted
    · next s' next =>
      by_cases closing : c = ']'
      · rw [closing]
        exact List.mem_cons_self
      · obtain ⟨opened', pending'⟩ :=
          AuthorityState.pending_of_next? closing next opened pending
        exact List.mem_cons_of_mem _ (ih accepted opened' pending')

theorem closing_of_isAuthority {rest : List Char} (accepted : isAuthority ('[' :: rest) = true) :
    ']' ∈ rest :=
  closing_of_isAuthorityFrom (s := { opened := true }) accepted rfl rfl

theorem hostOf_eq {authority : List Char} (userless : '@' ∉ authority)
    (plain : authority.head? ≠ some '[') : hostOf authority = authority.takeWhile (· != ':') := by
  unfold hostOf
  rw [dropUser_of_not_mem userless]
  split
  · exact absurd rfl plain
  · rfl

theorem hostOf_bracketed {inside rest : List Char} (userless : '@' ∉ '[' :: inside ++ ']' :: rest)
    (within : ']' ∉ inside) : hostOf ('[' :: inside ++ ']' :: rest) = '[' :: inside ++ [']'] := by
  unfold hostOf
  rw [dropUser_of_not_mem userless]
  show '[' :: (inside ++ ']' :: rest).takeWhile (· != ']') ++ [']'] = _
  rw [Text.takeWhile_append_sep within]

/-- All that is relied on of the rules for targets, which are not the server's own. -/
structure Rules : Prop where
  /-- The path ends before the query and the fragment. -/
  path {text : String} {u : Uri} : parse? text = some u →
    ∀ c ∈ u.path.toList, c ≠ '?' ∧ c ≠ '#'
  /-- An absolute target has its authority as it was written. -/
  absolute {authority rest : String} {u : Uri} : isAuthority authority.toList = true →
    parse? ("http://" ++ authority ++ "/" ++ rest) = some u →
      u.authority = authority ∧ authority ≠ ""
  relative {rest : String} {u : Uri} : parse? ("/" ++ rest) = some u → u.authority = ""
  /-- An authority can be read as text if it is sent in a field. -/
  printable {authority : List Char} : isAuthority authority = true →
    ∀ c ∈ authority, isPlainChar c = true
  closed {rest : List Char} : isAuthority ('[' :: rest) = true → ']' ∈ rest
  /-- Without a user the host ends at the first colon. -/
  host {authority : List Char} : '@' ∉ authority → authority.head? ≠ some '[' →
    hostOf authority = authority.takeWhile (· != ':')
  /-- A literal keeps its brackets. -/
  literal {inside rest : List Char} : '@' ∉ '[' :: inside ++ ']' :: rest → ']' ∉ inside →
    hostOf ('[' :: inside ++ ']' :: rest) = '[' :: inside ++ [']']

theorem rules : Rules where
  path := query_not_mem_path
  absolute := authority_of_absolute
  relative := authority_of_relative
  printable accepted _ mem := (chars_of_isAuthority accepted mem).1
  closed := closing_of_isAuthority
  host := hostOf_eq
  literal := hostOf_bracketed

end Uri

end Http

end Turnstile
