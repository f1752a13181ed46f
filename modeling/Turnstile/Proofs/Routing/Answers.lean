import Turnstile.Proofs.Routing.HostSpelling
import Turnstile.Proofs.Routing.Selection

/-!
# Which binding answers for a name, told from the texts

A binding is named by the canonical text of its key. `Answer` says in terms of these texts alone
what a name is answered with: its own binding, or that of the longest name above it that is bound
with a star, or that of the lone star, or nothing. A table answers so (`answer_of_resolve?`). Since
there is but one answer (`Answer.unique`), who answers depends on what is bound alone
(`Answer.text_eq`), not on the order in which it was bound.
-/

namespace Turnstile.Routing

namespace Hostname

variable {α : Type} {bound : String → Option α} {name : String}
  {answer answer' : Option (String × α)}

/-- What a name is answered with if `bound` gives the values of the texts that are bound. -/
inductive Answer (bound : String → Option α) (name : String) : Option (String × α) → Prop
  | exact {value : α} (own : bound name = some value) : Answer bound name (some (name, value))
  /-- The longest name above it that is bound with a star. -/
  | above {domain : String} {value : α} (free : bound name = none) (below : Below name domain)
      (here : bound ("*." ++ domain) = some value)
      (longest : ∀ other, Below name other → (bound ("*." ++ other)).isSome →
        other.length ≤ domain.length) :
      Answer bound name (some ("*." ++ domain, value))
  | star {value : α} (free : bound name = none)
      (none_above : ∀ domain, Below name domain → bound ("*." ++ domain) = none)
      (here : bound "*" = some value) : Answer bound name (some ("*", value))
  | nothing (free : bound name = none)
      (none_above : ∀ domain, Below name domain → bound ("*." ++ domain) = none)
      (no_star : bound "*" = none) : Answer bound name none

/-- A name is longer than what it lies below. -/
theorem Below.length_lt {domain : String} (h : Below name domain) :
    domain.length < name.length := by
  obtain ⟨front, rfl⟩ := h
  have dot : ".".length = 1 := rfl
  rw [String.length_append, String.length_append]
  omega

theorem Below.eq_of_length_eq {domain other : String} (h : Below name domain)
    (h' : Below name other) (same : domain.length = other.length) : domain = other := by
  obtain ⟨front, rfl⟩ := h
  obtain ⟨front', written⟩ := h'
  have ends := congrArg String.toList written
  simp only [String.toList_append] at ends
  exact String.toList_inj.1 (List.append_inj_right' ends same)

/-- There is one answer. -/
theorem Answer.unique (h : Answer bound name answer) (h' : Answer bound name answer') :
    answer = answer' := by
  cases h with
  | exact own =>
    cases h' with
    | exact own' => simp_all
    | above free | star free | nothing free => simp [own] at free
  | above free below here longest =>
    cases h' with
    | exact own => simp [free] at own
    | above _ below' here' longest' =>
      have lengths := Nat.le_antisymm (longest' _ below (by simp [here]))
        (longest _ below' (by simp [here']))
      obtain rfl := below.eq_of_length_eq below' lengths
      simp_all
    | star _ none_above | nothing _ none_above => simp [none_above _ below] at here
  | star free none_above here =>
    cases h' with
    | exact own => simp [free] at own
    | above _ below' here' => simp [none_above _ below'] at here'
    | star _ _ here' => simp_all
    | nothing _ _ no_star => simp [here] at no_star
  | nothing free none_above no_star =>
    cases h' with
    | exact own => simp [free] at own
    | above _ below' here' => simp [none_above _ below'] at here'
    | star _ _ here' => simp [no_star] at here'
    | nothing => rfl

/-- Other values are answered with in the same way. -/
theorem Answer.map {β : Type} (f : α → β) (h : Answer bound name answer) :
    Answer (fun text => (bound text).map f) name (answer.map (Prod.map id f)) := by
  cases h with
  | exact own => exact .exact (by simp [own])
  | above free below here longest =>
    refine .above (by simp [free]) below (by simp [here]) fun other hb ho => ?_
    exact longest other hb (by simpa using ho)
  | star free none_above here =>
    exact .star (by simp [free]) (fun domain hb => by simp [none_above domain hb]) (by simp [here])
  | nothing free none_above no_star =>
    exact .nothing (by simp [free]) (fun domain hb => by simp [none_above domain hb])
      (by simp [no_star])

/-- Who answers depends only on what is bound, not on the values. -/
theorem Answer.text_eq {β : Type} {bound' : String → Option β} {answer' : Option (String × β)}
    (same : ∀ text, (bound text).isSome = (bound' text).isSome)
    (h : Answer bound name answer) (h' : Answer bound' name answer') :
    answer.map (·.1) = answer'.map (·.1) := by
  have blank : (fun text => (bound text).map fun _ => ()) =
      fun text => (bound' text).map fun _ => () := by
    funext text
    have := same text
    cases hb : bound text <;> cases hb' : bound' text <;> simp_all
  have one := (h.map fun _ => ()).unique (blank ▸ h'.map fun _ => ())
  have texts := congrArg (Option.map Prod.fst) one
  simpa [Function.comp_def] using texts

/-- A wildcard does not answer for its own name. -/
theorem Answer.ne_own {found : String × α} (h : Answer bound name (some found)) :
    found.1 ≠ "*." ++ name := by
  have marker : "*.".length = 2 := rfl
  intro own
  have lengths := congrArg String.length own
  rw [String.length_append] at lengths
  cases h with
  | exact => simp only at lengths; omega
  | above _ below =>
    have := below.length_lt
    rw [String.length_append] at lengths
    omega
  | star =>
    have star : "*".length = 1 := rfl
    simp only at lengths
    omega

end Hostname

namespace HostTable

open Hostname (parse candidate? Named presented IsHostname Below Answer dotted)

variable {α : Type}

/-- The bindings whose patterns can be read, named by their canonical texts. -/
def named (binds : List (String × α)) : List (String × α) :=
  (Trie.readPairs (parse · true) binds).map fun pair => (pair.1.hostText, pair.2)

def entry (b : Binding α) : String × α := (b.key.hostText, b.value)

/-- What a run of bindings binds to a canonical text: the first value, since others are refused. -/
def bound (binds : List (String × α)) (text : String) : Option α := (named binds).lookup text

/-- A text has the value that is bound to the key with this text. -/
theorem bound_hostText (binds : List (String × α)) {key : Key} (hk : Named key) :
    bound binds key.hostText = (ofBinds binds).trie.find? key := by
  rw [bound, named, trie_ofBinds, Trie.find?_ofAttempts]
  apply lookup_map
  intro pair hpair same
  obtain ⟨pattern, -, read⟩ := Trie.mem_readPairs.1 hpair
  exact (Hostname.hostText_inj (Hostname.labels_of_parse read) hk).1 same

/-- A pattern that can be read is refused if its canonical text is bound already, and only then. -/
theorem bind_ofBinds (binds : List (String × α)) {pattern : String} {key : Key}
    (read : parse pattern true = .ok key) (value : α) :
    (ofBinds binds).bind pattern value =
      if (bound binds key.hostText).isSome then .error (.duplicateBinding pattern)
      else .ok (ofBinds (binds ++ [(pattern, value)])) := by
  rw [bound_hostText binds (Hostname.labels_of_parse read), trie_ofBinds, Trie.find?_ofAttempts]
  exact Trie.bind_foldl_bind HostTable.trie HostTable.mk HostTable.bind rfl (fun _ => rfl)
    (fun _ _ _ => rfl) read value

theorem bound_star {binds : List (String × α)} :
    bound binds "*" = (ofBinds binds).trie.find? .everything :=
  bound_hostText binds Hostname.named_everything

section OneName

variable {binds : List (String × α)} {segments : List String} (hk : Named ⟨segments, false⟩)
include hk

/-- What is bound to the text of a wildcard above a name is bound to a key that serves the name. -/
theorem bound_above {domain : String} (below : Below (⟨segments, false⟩ : Key).hostText domain) :
    ∃ front, front ≠ [] ∧ front <+: segments ∧ (⟨front, true⟩ : Key).Serves ⟨segments, false⟩ ∧
      domain.toList = dotted front ∧
      bound binds ("*." ++ domain) = (ofBinds binds).trie.find? ⟨front, true⟩ := by
  obtain ⟨front, nonempty, begins, shorter, hd⟩ :=
    (Hostname.below_iff (hk.2 rfl) hk.1 (Hostname.toList_hostText_exact segments)).1 below
  have text : (⟨front, true⟩ : Key).hostText = "*." ++ domain :=
    Hostname.hostText_of_wildcard nonempty hd
  exact ⟨front, nonempty, begins, .inr ⟨rfl, begins, shorter⟩, hd,
    text ▸ bound_hostText binds (hk.above begins)⟩

theorem everything_serves : Key.everything.Serves ⟨segments, false⟩ :=
  .inr ⟨rfl, List.nil_prefix, List.length_pos_iff.2 (hk.2 rfl)⟩

/-- Nothing is the answer if nothing that serves the name is bound. -/
theorem answer_none (free : ∀ k : Key, k.Serves ⟨segments, false⟩ →
      (ofBinds binds).trie.find? k = none) :
    Answer (bound binds) (⟨segments, false⟩ : Key).hostText none := by
  apply Answer.nothing
  · rw [bound_hostText binds hk]
    exact free _ (.inl ⟨rfl, rfl⟩)
  · intro domain below
    obtain ⟨front, -, -, serves, -, above⟩ := bound_above hk below
    rw [above]
    exact free _ serves
  · rw [bound_star]
    exact free _ (everything_serves hk)

/-- A binding that serves a name is the answer if no other that serves it has a longer key. -/
theorem answer_some {k : Key} {value : α} (serves : k.Serves ⟨segments, false⟩)
    (here : (ofBinds binds).trie.find? k = some value)
    (longest : ∀ k' : Key, k'.Serves ⟨segments, false⟩ →
      ((ofBinds binds).trie.find? k').isSome → k'.length ≤ k.length) :
    Answer (bound binds) (⟨segments, false⟩ : Key).hostText (some (k.hostText, value)) := by
  have free {k' : Key} (hs : k'.Serves ⟨segments, false⟩) (longer : k.length < k'.length) :
      (ofBinds binds).trie.find? k' = none := by
    cases hv : (ofBinds binds).trie.find? k' with
    | none => rfl
    | some v => exact absurd (longest k' hs (by simp [hv])) (Nat.not_le.2 longer)
  rcases serves with ⟨-, rfl⟩ | ⟨wild, begins, shorter⟩
  · exact .exact ((bound_hostText binds hk).trans here)
  · obtain ⟨front, wildcard⟩ := k
    obtain rfl : wildcard = true := wild
    have own : bound binds (⟨segments, false⟩ : Key).hostText = none :=
      (bound_hostText binds hk).trans (free (.inl ⟨rfl, rfl⟩) shorter)
    by_cases lone : front = []
    · subst lone
      apply Answer.star own _ (bound_star.trans here)
      intro domain below
      obtain ⟨front, nonempty, -, serves, -, above⟩ := bound_above hk below
      exact above.trans (free serves (List.length_pos_iff.2 nonempty))
    · have spelled : (String.ofList (dotted front)).toList = dotted front := String.toList_ofList
      have text : (⟨front, true⟩ : Key).hostText = "*." ++ String.ofList (dotted front) :=
        Hostname.hostText_of_wildcard lone spelled
      rw [text]
      apply Answer.above own
      · exact (Hostname.below_iff (hk.2 rfl) hk.1 (Hostname.toList_hostText_exact segments)).2
          ⟨front, lone, begins, shorter, spelled⟩
      · rw [← text, bound_hostText binds (hk.above begins), here]
      · intro other below bound
        obtain ⟨front', nonempty, begins', serves, ho, above⟩ := bound_above hk below
        have fewer : front'.length ≤ front.length := longest _ serves (above ▸ bound)
        rw [← String.length_toList, ← String.length_toList, ho, spelled]
        exact Hostname.length_dotted_le nonempty
          (List.prefix_of_prefix_length_le begins' begins fewer)

/-- A table answers for a name as its bindings' texts say. -/
theorem answer_of_best? : Answer (bound binds) (⟨segments, false⟩ : Key).hostText
    (((ofBinds binds).best? ⟨segments, false⟩).map entry) := by
  have valid := (valid_ofBinds binds).trie
  cases best : (ofBinds binds).best? ⟨segments, false⟩ with
  | none =>
    apply answer_none hk
    intro k serves
    cases hv : (ofBinds binds).trie.find? k with
    | none => rfl
    | some v =>
      have answered := (best?_isSome_iff valid rfl).2
        ⟨⟨k, v⟩, (Trie.mem_toList_iff_find? valid.arena).2 hv, serves⟩
      simp [best] at answered
  | some b =>
    have nearest := (best?_eq_some_iff valid rfl).1 best
    apply answer_some hk nearest.2.1 ((Trie.mem_toList_iff_find? valid.arena).1 nearest.1)
    intro k serves bound
    obtain ⟨v, hv⟩ := Option.isSome_iff_exists.1 bound
    exact nearest.length_le ((Trie.mem_toList_iff_find? (b := ⟨k, v⟩) valid.arena).2 hv) serves

end OneName

theorem isSome_bound_of_perm {binds binds' : List (String × α)} (perm : binds'.Perm binds)
    (text : String) : (bound binds' text).isSome = (bound binds text).isSome := by
  have same : (named binds').Perm (named binds) := (perm.filterMap _).map _
  rw [Bool.eq_iff_iff, bound, bound, List.lookup_isSome_iff, List.lookup_isSome_iff]
  simp only [same.mem_iff]

theorem resolve?_eq_none {t : HostTable α} {host : String}
    (unnamed : ¬ IsHostname (presented host)) : t.resolve? host = none := by
  cases found : candidate? host with
  | none => rw [resolve?, found, Option.bind_none]
  | some key => exact absurd (Hostname.isHostname_presented_iff.2 ⟨key, found⟩) unnamed

theorem answer_of_resolve? (binds : List (String × α)) {host : String}
    (hostname : IsHostname (presented host)) :
    Answer (bound binds) (presented host)
      (((ofBinds binds).resolve? host).map entry) := by
  obtain ⟨⟨segments, wildcard⟩, found⟩ := Hostname.isHostname_presented_iff.1 hostname
  obtain ⟨rfl, hk, text⟩ := Hostname.candidate?_eq_some_iff_hostText.1 found
  rw [resolve?, found, Option.bind_some, ← text]
  exact answer_of_best? hk

/-- Answers in terms of texts. What reads as no name is not answered. A name is answered by its own
binding, else by that of the longest name above it that is bound with a star, else by that of the
lone star, which is also the fallback. So no wildcard answers for its own name, and who answers does
not depend on the order in which the bindings were made. -/
theorem resolve_by_text (binds : List (String × α)) :
    (∀ host, ¬ IsHostname (presented host) → (ofBinds binds).resolve? host = none) ∧
      (∀ host, IsHostname (presented host) →
        Answer (bound binds) (presented host) (((ofBinds binds).resolve? host).map entry)) ∧
      (ofBinds binds).fallback?.map entry = (bound binds "*").map ("*", ·) ∧
      (∀ host, ∀ b ∈ (ofBinds binds).resolve? host, b.key.hostText ≠ "*." ++ presented host) ∧
      ∀ binds', binds'.Perm binds → ∀ host,
        ((ofBinds binds').resolve? host).map (·.key.hostText) =
          ((ofBinds binds).resolve? host).map (·.key.hostText) := by
  refine ⟨fun host => resolve?_eq_none, fun host => answer_of_resolve? binds, ?_, ?_, ?_⟩
  · rw [fallback?_eq (valid_ofBinds binds).trie, bound_star, Option.map_map]
    rfl
  · intro host b answered
    by_cases hostname : IsHostname (presented host)
    · have answer := answer_of_resolve? binds hostname
      rw [answered] at answer
      exact answer.ne_own
    · rw [resolve?_eq_none hostname] at answered
      cases answered
  · intro binds' perm host
    by_cases hostname : IsHostname (presented host)
    · have texts := Answer.text_eq (isSome_bound_of_perm perm) (answer_of_resolve? binds' hostname)
        (answer_of_resolve? binds hostname)
      rw [Option.map_map, Option.map_map] at texts
      exact texts
    · rw [resolve?_eq_none hostname, resolve?_eq_none hostname]

/-- The wildcard with the name's own text is passed over for the one above it. -/
theorem resolve_by_text_passed_over :
    let binds := [("*", 0), ("*.A.example.com", 1), ("*.example.com", 2), ("*.Example.com", 3)]
    IsHostname (presented "A.example.COM.") ∧ binds.reverse.Perm binds ∧
      Answer (bound binds) "a.example.com" (some ("*.example.com", 2)) ∧
      ((ofBinds binds.reverse).resolve? "A.example.COM.").map (·.key.hostText) =
        some "*.example.com" := by
  intro binds
  have name : presented "A.example.COM." = "a.example.com" := by decide
  have hostname : IsHostname (presented "A.example.COM.") :=
    Hostname.isHostname_iff.2 ⟨["com", "example", "a"], rfl⟩
  obtain ⟨-, answers, -, -, ordered⟩ := resolve_by_text binds
  refine ⟨hostname, List.reverse_perm binds, ?_, ?_⟩
  · have answer := answers "A.example.COM." hostname
    rw [name] at answer
    exact answer
  · rw [ordered binds.reverse (List.reverse_perm binds)]
    decide

end HostTable

end Turnstile.Routing
