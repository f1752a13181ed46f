import Turnstile.Proofs.Routing.Resolution
import Turnstile.Site.Certificates

/-!
# Selections answer like the whole table

`select` collects for each pattern what serves the names that the pattern covers. A selection holds
bindings of the table only, and among them the table's answer for every covered name
(`best_mem_contribution`), so it gives the same answers. A pattern contributes nothing exactly when
the table answers for none of its names (`contribution_ne_nil_iff`). What each pattern contributes
does not depend on the others (`selectInto_spec`), and a selection contributes to itself what the
table contributed to it (`mem_contribution_of_subset`).
-/

namespace Turnstile.Routing

open Hostname (parse candidate? IsLabel)

/-- A pattern covers the names that its key serves. -/
def Hostname.Covers (pattern name : String) : Prop :=
  ∃ key candidate, parse pattern true = .ok key ∧ candidate? name = some candidate ∧
    key.Serves candidate

/-- Keys that are read from patterns serve some name. -/
theorem Hostname.exists_served {key : Key}
    (named : (∀ s ∈ key.segments, IsLabel s) ∧ (key.wildcard = false → key.segments ≠ [])) :
    ∃ name candidate, candidate? name = some candidate ∧ key.Serves candidate ∧
      key.segments <+: candidate.segments := by
  cases hw : key.wildcard with
  | false =>
    obtain ⟨name, hn⟩ := Hostname.candidate?_of_labels (named.2 hw) named.1
    have same : (⟨key.segments, false⟩ : Key) = key := by rw [Key.ext_iff, hw]; simp
    exact ⟨name, key, same ▸ hn, .inl ⟨hw, rfl⟩, List.prefix_refl _⟩
  | true =>
    have labels : ∀ s ∈ key.segments ++ ["a"], IsLabel s := by
      intro s hs
      rcases List.mem_append.1 hs with hs | hs
      · exact named.1 s hs
      · rw [List.mem_singleton.1 hs]
        decide
    obtain ⟨name, hn⟩ := Hostname.candidate?_of_labels (by simp) labels
    exact ⟨name, _, hn, .inr ⟨hw, List.prefix_append _ _, by simp [Key.length]⟩,
      List.prefix_append _ _⟩

namespace HostTable

variable {α : Type}

/-! ### Tables made by binding patterns -/

structure Valid (t : HostTable α) : Prop where
  trie : t.trie.Valid
  named : ∀ b ∈ t.trie.toList,
    (∀ s ∈ b.key.segments, IsLabel s) ∧ (b.key.wildcard = false → b.key.segments ≠ [])

def ofBinds (binds : List (String × α)) : HostTable α :=
  binds.foldl (fun t bind => (t.bind bind.1 bind.2).toOption.getD t) .empty

theorem trie_ofBinds (binds : List (String × α)) :
    (ofBinds binds).trie = Trie.ofAttempts (Trie.readPairs (parse · true) binds) :=
  Trie.trie_foldl_bind HostTable.trie HostTable.mk HostTable.bind rfl (fun _ => rfl)
    (fun _ _ _ => rfl)

theorem valid_ofBinds (binds : List (String × α)) : (ofBinds binds).Valid := by
  have trie : (ofBinds binds).trie.Valid := trie_ofBinds binds ▸ Trie.valid_ofAttempts _
  refine ⟨trie, fun b hb => ?_⟩
  have bound := (Trie.mem_toList_iff_find? trie.arena).1 hb
  rw [trie_ofBinds, Trie.find?_ofAttempts] at bound
  obtain ⟨pattern, -, read⟩ := Trie.mem_readPairs.1 (mem_of_lookup_eq_some bound)
  exact Hostname.labels_of_parse read

/-! ### What one pattern contributes -/

theorem mem_contribution_wildcard {t : HostTable α} (valid : t.trie.Valid) {key : Key}
    (wild : key.wildcard = true) {b : Binding α} :
    b ∈ t.contribution key ↔
      ((t.trie.find? key).isSome = false ∧ t.Nearest (fun k => k.wildcard ∧ k.Serves key) b) ∨
        (b ∈ t.trie.toList ∧ key.segments <+: b.key.segments ∧ b.key ≠ key.withWildcard false) := by
  simp only [contribution, wild, if_true, List.mem_append, List.mem_filter, bne_iff_ne,
    Trie.mem_under valid.arena, Trie.mem_toList valid.arena, and_assoc]
  refine or_congr ?_ Iff.rfl
  cases (t.trie.find? key).isSome with
  | true => simp
  | false => simp [enclosing?_eq_some_iff valid]

theorem mem_contribution_exact {t : HostTable α} (valid : t.trie.Valid) {key : Key}
    (exact : key.wildcard = false) {b : Binding α} :
    b ∈ t.contribution key ↔ t.Nearest (·.Serves key) b := by
  simp [contribution, exact, best?_eq_some_iff valid exact]

theorem contribution_subset {t : HostTable α} (valid : t.trie.Valid) (key : Key) :
    t.contribution key ⊆ t.trie.toList := by
  intro b hb
  cases hw : key.wildcard with
  | false => exact ((mem_contribution_exact valid hw).1 hb).1
  | true =>
    rcases (mem_contribution_wildcard valid hw).1 hb with ⟨-, h⟩ | h
    · exact h.1
    · exact h.1

/-- The table's answer for a name is among what a pattern that covers the name contributes. -/
theorem best_mem_contribution {t : HostTable α} (valid : t.trie.Valid) {key candidate : Key}
    (exact : candidate.wildcard = false) (serves : key.Serves candidate) {b : Binding α}
    (best : t.best? candidate = some b) : b ∈ t.contribution key := by
  have nearest := (best?_eq_some_iff valid exact).1 best
  cases hw : key.wildcard with
  | false =>
    rcases serves with ⟨-, rfl⟩ | ⟨hw', -⟩
    · exact (mem_contribution_exact valid hw).2 nearest
    · simp [hw] at hw'
  | true =>
    obtain ⟨below, longer⟩ := serves.of_wildcard hw
    obtain ⟨hb, hserves, first⟩ := nearest
    rw [mem_contribution_wildcard valid hw]
    rcases hserves with ⟨-, hk⟩ | ⟨hwild, hbelow, -⟩
    · -- The name itself is bound.
      refine .inr ⟨hb, hk ▸ below, fun h => ?_⟩
      rw [← hk, h] at longer
      exact Nat.lt_irrefl _ longer
    · rcases Nat.lt_or_ge b.key.length key.length with shorter | deeper
      · -- The answer comes from above the pattern, so the pattern is not bound.
        have enclosed : b.key.Serves key :=
          .inr ⟨hwild, List.prefix_of_prefix_length_le hbelow below (Nat.le_of_lt shorter), shorter⟩
        have nearest : t.Nearest (fun k => k.wildcard ∧ k.Serves key) b :=
          ⟨hb, ⟨hwild, enclosed⟩, fun b' hb' h' => first b' hb' (h'.2.trans serves h'.1)⟩
        refine .inl ⟨?_, nearest⟩
        rw [Bool.eq_false_iff]
        intro bound
        obtain ⟨b', hb', hk'⟩ := (Trie.find?_isSome_iff valid.arena).1 bound
        rcases first b' hb' (hk' ▸ serves) with rfl | more
        · rw [hk'] at shorter
          exact Nat.lt_irrefl _ shorter
        · rw [hk'] at more
          rcases more with h | ⟨h, -⟩ <;> omega
      · refine .inr ⟨hb, List.prefix_of_prefix_length_le below hbelow deeper, fun h => ?_⟩
        rw [h] at hwild
        cases hwild

/-- What the table contributed to a part of it, the part contributes again. -/
theorem mem_contribution_of_subset {t part : HostTable α} (valid : t.trie.Valid)
    (valid' : part.trie.Valid) (sub : part.trie.toList ⊆ t.trie.toList) {key : Key} {b : Binding α}
    (hb : b ∈ t.contribution key) (has : b ∈ part.trie.toList) : b ∈ part.contribution key := by
  cases hw : key.wildcard with
  | false =>
    rw [mem_contribution_exact valid hw] at hb
    exact (mem_contribution_exact valid' hw).2 (hb.of_subset sub has)
  | true =>
    rw [mem_contribution_wildcard valid hw] at hb
    rw [mem_contribution_wildcard valid' hw]
    rcases hb with ⟨free, nearest⟩ | ⟨-, below⟩
    · refine .inl ⟨?_, nearest.of_subset sub has⟩
      rw [Bool.eq_false_iff] at free ⊢
      intro bound
      obtain ⟨b', hb', hk⟩ := (Trie.find?_isSome_iff valid'.arena).1 bound
      exact free ((Trie.find?_isSome_iff valid.arena).2 ⟨b', sub hb', hk⟩)
    · exact .inr ⟨has, below⟩

/-- A pattern contributes something exactly when the table answers for one of its names. -/
theorem contribution_ne_nil_iff {t : HostTable α} (valid : t.Valid) {key : Key}
    (named : (∀ s ∈ key.segments, IsLabel s) ∧ (key.wildcard = false → key.segments ≠ [])) :
    t.contribution key ≠ [] ↔
      ∃ name candidate, candidate? name = some candidate ∧ key.Serves candidate ∧
        (t.best? candidate).isSome := by
  constructor
  · intro nonempty
    obtain ⟨b, hb⟩ := List.exists_mem_of_ne_nil _ nonempty
    have hmem := contribution_subset valid.trie key hb
    -- It is enough that the binding and the pattern serve a common name.
    suffices ∃ name candidate, candidate? name = some candidate ∧ key.Serves candidate ∧
        b.key.Serves candidate by
      obtain ⟨name, candidate, hn, hk, hserves⟩ := this
      have exact := (Hostname.labels_of_candidate? hn).2.2
      exact ⟨name, candidate, hn, hk, (best?_isSome_iff valid.trie exact).2 ⟨b, hmem, hserves⟩⟩
    cases hw : key.wildcard with
    | false =>
      obtain ⟨name, candidate, hn, hk, -⟩ := Hostname.exists_served named
      have hserves := ((mem_contribution_exact valid.trie hw).1 hb).2.1
      rcases hk with ⟨-, rfl⟩ | ⟨hw', -⟩
      · exact ⟨name, key, hn, .inl ⟨hw, rfl⟩, hserves⟩
      · simp [hw] at hw'
    | true =>
      rcases (mem_contribution_wildcard valid.trie hw).1 hb with
        ⟨-, -, ⟨hwild, hserves⟩, -⟩ | ⟨-, below, other⟩
      · obtain ⟨name, candidate, hn, hk, -⟩ := Hostname.exists_served named
        exact ⟨name, candidate, hn, hk, hserves.trans hk hwild⟩
      · obtain ⟨name, candidate, hn, hk, deeper⟩ := Hostname.exists_served (valid.named b hmem)
        refine ⟨name, candidate, hn, .inr ⟨hw, below.trans deeper, ?_⟩, hk⟩
        have notShorter : key.length ≤ b.key.length := below.length_le
        rcases hk with ⟨exact, rfl⟩ | ⟨-, -, longer⟩
        · refine Nat.lt_of_le_of_ne notShorter fun h => other ?_
          exact Key.ext (below.eq_of_length h).symm exact
        · exact Nat.lt_of_le_of_lt notShorter longer
  · rintro ⟨name, candidate, hn, hk, answered⟩
    obtain ⟨b, hb⟩ := Option.isSome_iff_exists.1 answered
    have exact := (Hostname.labels_of_candidate? hn).2.2
    exact List.ne_nil_of_mem (best_mem_contribution valid.trie exact hk hb)

/-! ### What a list of patterns selects -/

/-- Bindings of one table never get in each other's way, so all that are missing are added. -/
theorem absorb_spec {t chosen : HostTable α} (valid : t.trie.Valid) (valid' : chosen.trie.Valid)
    (sub : chosen.trie.toList ⊆ t.trie.toList) {found : List (Binding α)}
    (hf : found ⊆ t.trie.toList) :
    ∃ more, chosen.absorb found = .ok more ∧ more.trie.Valid ∧
      ∀ b, b ∈ more.trie.toList ↔ b ∈ chosen.trie.toList ∨ b ∈ found := by
  induction found generalizing chosen with
  | nil => exact ⟨chosen, rfl, valid', by simp⟩
  | cons first rest ih =>
    obtain ⟨hfirst, hrest⟩ := List.cons_subset.1 hf
    unfold absorb
    by_cases bound : (chosen.trie.find? first.key).isSome
    · obtain ⟨more, done, hm, mem⟩ := ih valid' sub hrest
      -- A binding with the same key is the same binding.
      obtain ⟨b', hb', hk⟩ := (Trie.find?_isSome_iff valid'.arena).1 bound
      have same := Trie.eq_of_mem_toList valid.arena (sub hb') hfirst hk
      refine ⟨more, by rw [if_pos bound, done], hm, fun b => ?_⟩
      rw [mem, List.mem_cons]
      constructor
      · exact fun h => h.imp id .inr
      · rintro (h | rfl | h)
        · exact .inl h
        · exact .inl (same ▸ hb')
        · exact .inr h
    · have new : chosen.trie.find? first.key = none := by simpa using bound
      have mem' {b : Binding α} :
          b ∈ (chosen.trie.attempt first.key first.value).2.toList ↔
            b = first ∨ b ∈ chosen.trie.toList := Trie.mem_toList_attempt valid'.arena new
      have next : HostTable.trie ⟨(chosen.trie.attempt first.key first.value).2⟩ |>.Valid :=
        valid'.attempt first.key first.value
      obtain ⟨more, done, hm, mem⟩ := ih next
        (fun b hb => (mem'.1 hb).elim (fun h => h ▸ hfirst) (fun h => sub h)) hrest
      refine ⟨more, ?_, hm, fun b => ?_⟩
      · rw [if_neg bound, Trie.add_eq valid'.arena, if_neg bound]
        exact done
      · rw [mem, mem', List.mem_cons, or_assoc, or_left_comm]

theorem request_of_parse {t : HostTable α} {pattern : String} {key : Key}
    (hp : parse pattern true = .ok key) :
    t.request pattern =
      if t.contribution key = [] then .error (.noMatch pattern) else .ok (t.contribution key) := by
  simp only [request, hp]
  cases t.contribution key <;> rfl

theorem request_eq_ok_iff {t : HostTable α} {pattern : String} {found : List (Binding α)} :
    t.request pattern = .ok found ↔
      ∃ key, parse pattern true = .ok key ∧ found ≠ [] ∧ t.contribution key = found := by
  cases hp : parse pattern true with
  | error e => simp [request, hp]
  | ok key =>
    rw [request_of_parse hp]
    by_cases hc : t.contribution key = []
    · simp [hc]
    · simp only [hc, if_false, Except.ok.injEq, exists_eq_left']
      exact ⟨fun h => ⟨h ▸ hc, h⟩, fun h => h.2⟩

theorem mem_request_iff {t : HostTable α} {pattern : String} {b : Binding α} :
    (∃ found, t.request pattern = .ok found ∧ b ∈ found) ↔
      ∃ key, parse pattern true = .ok key ∧ b ∈ t.contribution key := by
  simp only [request_eq_ok_iff]
  constructor
  · rintro ⟨found, ⟨key, hp, -, rfl⟩, hb⟩
    exact ⟨key, hp, hb⟩
  · rintro ⟨key, hp, hb⟩
    exact ⟨_, ⟨key, hp, List.ne_nil_of_mem hb, rfl⟩, hb⟩

/-- A selection holds what its patterns ask for, or fails as the first does that cannot be
served. -/
theorem selectInto_spec {t chosen : HostTable α} (valid : t.trie.Valid) (valid' : chosen.trie.Valid)
    (sub : chosen.trie.toList ⊆ t.trie.toList) (patterns : List String) :
    (∃ part, t.selectInto chosen patterns = .ok part ∧ part.trie.Valid ∧
      (∀ p ∈ patterns, ∃ found, t.request p = .ok found) ∧
      ∀ b, b ∈ part.trie.toList ↔
        b ∈ chosen.trie.toList ∨ ∃ p ∈ patterns, ∃ found, t.request p = .ok found ∧ b ∈ found) ∨
    ∃ before p after e, patterns = before ++ p :: after ∧
      t.selectInto chosen patterns = .error e ∧ t.request p = .error e ∧
      ∀ q ∈ before, ∃ found, t.request q = .ok found := by
  induction patterns generalizing chosen with
  | nil => exact .inl ⟨chosen, rfl, valid', by simp, by simp⟩
  | cons pattern rest ih =>
    cases hr : t.request pattern with
    | error e =>
      exact .inr ⟨[], pattern, rest, e, rfl, by simp only [selectInto, hr], hr, by simp⟩
    | ok found =>
      have hf : found ⊆ t.trie.toList := by
        obtain ⟨key, -, -, rfl⟩ := request_eq_ok_iff.1 hr
        exact contribution_subset valid key
      obtain ⟨more, done, hm, mem⟩ := absorb_spec valid valid' sub hf
      have sub' : more.trie.toList ⊆ t.trie.toList := fun b hb =>
        ((mem b).1 hb).elim (fun h => sub h) (fun h => hf h)
      have goes : t.selectInto chosen (pattern :: rest) = t.selectInto more rest := by
        simp only [selectInto, hr, done]
      rw [goes]
      rcases ih hm sub' with ⟨part, hp, hv, all, mem'⟩ | ⟨before, p, after, e, rfl, he, hpe, all⟩
      · refine .inl ⟨part, hp, hv, List.forall_mem_cons.2 ⟨⟨found, hr⟩, all⟩, fun b => ?_⟩
        simp only [mem', mem, List.mem_cons, exists_eq_or_imp, or_assoc, hr, Except.ok.injEq,
          exists_eq_left']
      · exact .inr ⟨pattern :: before, p, after, e, rfl, he, hpe,
          List.forall_mem_cons.2 ⟨⟨found, hr⟩, all⟩⟩

/-- A table answers for a pattern if it answers for one of the names that the pattern covers. -/
def AnswersFor (t : HostTable α) (pattern : String) : Prop :=
  ∃ name, Hostname.Covers pattern name ∧ (t.resolve? name).isSome

theorem request_isOk_iff {t : HostTable α} (valid : t.Valid) {pattern : String} :
    (∃ found, t.request pattern = .ok found) ↔ t.AnswersFor pattern := by
  simp only [request_eq_ok_iff, exists_comm (α := List _), exists_and_left]
  constructor
  · rintro ⟨key, hp, found, nonempty, rfl⟩
    obtain ⟨name, candidate, hn, hk, answered⟩ :=
      (contribution_ne_nil_iff valid (Hostname.labels_of_parse hp)).1 nonempty
    exact ⟨name, ⟨key, candidate, hp, hn, hk⟩, by simpa [resolve?, hn] using answered⟩
  · rintro ⟨name, ⟨key, candidate, hp, hn, hk⟩, answered⟩
    refine ⟨key, hp, _, ?_, rfl⟩
    exact (contribution_ne_nil_iff valid (Hostname.labels_of_parse hp)).2
      ⟨name, candidate, hn, hk, by simpa [resolve?, hn] using answered⟩

/-- What a successful selection is, whatever the order of its patterns. -/
structure IsSelection (t : HostTable α) (patterns : List String) (part : HostTable α) : Prop where
  valid : part.trie.Valid
  served : ∀ p ∈ patterns, ∃ found, t.request p = .ok found
  mem : ∀ {b}, b ∈ part.trie.toList ↔
    ∃ p ∈ patterns, ∃ key, parse p true = .ok key ∧ b ∈ t.contribution key

theorem select_spec {t : HostTable α} (valid : t.trie.Valid) (patterns : List String) :
    (∃ part, t.select patterns = .ok part ∧ t.IsSelection patterns part) ∨
    ∃ before p after e, patterns = before ++ p :: after ∧ t.select patterns = .error e ∧
      t.request p = .error e ∧ ∀ q ∈ before, ∃ found, t.request q = .ok found := by
  have nothing : (HostTable.empty : HostTable α).trie.toList = [] := Trie.toList_empty
  have sub : (HostTable.empty : HostTable α).trie.toList ⊆ t.trie.toList := by simp [nothing]
  have start : (HostTable.empty : HostTable α).trie.Valid := Trie.valid_empty
  rcases selectInto_spec valid start sub patterns with
    ⟨part, hp, hv, served, mem⟩ | failed
  · refine .inl ⟨part, hp, hv, served, fun {b} => ?_⟩
    simp only [mem, nothing, List.not_mem_nil, false_or, mem_request_iff]
  · exact .inr failed

namespace IsSelection

variable {t part : HostTable α} {patterns : List String}

theorem subset (valid : t.trie.Valid) (h : t.IsSelection patterns part) :
    part.trie.toList ⊆ t.trie.toList := by
  intro b hb
  obtain ⟨p, -, key, -, hb⟩ := h.mem.1 hb
  exact contribution_subset valid key hb

/-- A covered name gets the same answer as from the whole table. -/
theorem resolve?_eq (valid : t.trie.Valid) (h : t.IsSelection patterns part) {p name : String}
    (hp : p ∈ patterns) (covers : Hostname.Covers p name) :
    part.resolve? name = t.resolve? name := by
  obtain ⟨key, candidate, hk, hn, serves⟩ := covers
  have exact := (Hostname.labels_of_candidate? hn).2.2
  rw [resolve?, resolve?, hn]
  exact best?_of_subset valid h.valid (h.subset valid) exact fun b best =>
    h.mem.2 ⟨p, hp, key, hk, best_mem_contribution valid exact serves best⟩

theorem toList_eq {patterns' : List String} {part' : HostTable α}
    (h : t.IsSelection patterns part) (h' : t.IsSelection patterns' part')
    (same : ∀ p, p ∈ patterns' ↔ p ∈ patterns) : part'.trie.toList = part.trie.toList := by
  refine Trie.toList_congr h'.valid.arena h.valid.arena fun b => ?_
  rw [← Trie.mem_toList h'.valid.arena, ← Trie.mem_toList h.valid.arena, h'.mem, h.mem]
  simp only [same]

/-- The order of the patterns and their repetition do not matter. -/
theorem of_same_patterns {patterns' : List String} (valid : t.trie.Valid)
    (h : t.IsSelection patterns part) (same : ∀ p, p ∈ patterns' ↔ p ∈ patterns) :
    ∃ part', t.select patterns' = .ok part' ∧ part'.trie.toList = part.trie.toList := by
  rcases select_spec valid patterns' with ⟨part', hs, h'⟩ | ⟨before, p, after, e, rfl, -, hr, -⟩
  · exact ⟨part', hs, h.toList_eq h' same⟩
  · obtain ⟨found, hfound⟩ := h.served p ((same p).1 (by simp))
    simp [hfound] at hr

/-- Selecting again changes nothing. -/
theorem again (valid : t.trie.Valid) (h : t.IsSelection patterns part) :
    ∃ part', part.select patterns = .ok part' ∧ part'.trie.toList = part.trie.toList := by
  have kept {p key} (hp : p ∈ patterns) (hk : parse p true = .ok key) {b}
      (hb : b ∈ t.contribution key) : b ∈ part.contribution key :=
    mem_contribution_of_subset valid h.valid (h.subset valid) hb (h.mem.2 ⟨p, hp, key, hk, hb⟩)
  rcases select_spec h.valid patterns with ⟨part', hs, h'⟩ | ⟨before, p, after, e, rfl, -, hr, -⟩
  · refine ⟨part', hs, ?_⟩
    refine Trie.toList_congr h'.valid.arena h.valid.arena fun b => ?_
    rw [← Trie.mem_toList h'.valid.arena, ← Trie.mem_toList h.valid.arena]
    constructor
    · exact fun hb => h'.subset h.valid hb
    · intro hb
      obtain ⟨p, hp, key, hk, hb⟩ := h.mem.1 hb
      exact h'.mem.2 ⟨p, hp, key, hk, kept hp hk hb⟩
  · -- What the table gave to each pattern is there, so no pattern goes without.
    have hp : p ∈ before ++ p :: after := by simp
    obtain ⟨found, hfound⟩ := h.served p hp
    obtain ⟨key, hk, nonempty, rfl⟩ := request_eq_ok_iff.1 hfound
    obtain ⟨b, hb⟩ := List.exists_mem_of_ne_nil _ nonempty
    rw [request_of_parse hk, if_neg (List.ne_nil_of_mem (kept hp hk hb))] at hr
    cases hr

end IsSelection

/-- The error of a pattern that parses is that nothing answers for it. -/
theorem request_eq_error_iff {t : HostTable α} (valid : t.Valid) {pattern : String} {key : Key}
    (hp : parse pattern true = .ok key) {e : RouteError} :
    t.request pattern = .error e ↔ ¬ t.AnswersFor pattern ∧ e = .noMatch pattern := by
  rw [← request_isOk_iff valid, request_of_parse hp]
  split <;> simp [eq_comm]

theorem select_ne_duplicateBinding {t : HostTable α} (valid : t.trie.Valid)
    (patterns : List String) (shown : String) :
    t.select patterns ≠ .error (.duplicateBinding shown) := by
  intro h
  rcases select_spec valid patterns with ⟨part, hs, -⟩ | ⟨before, p, after, e, -, hs, hr, -⟩
  · simp [hs] at h
  · obtain rfl : e = .duplicateBinding shown := by simpa [hs] using h
    cases hp : parse p true with
    | error e =>
      obtain ⟨fault, rfl⟩ := Hostname.parse_eq_error hp
      simp [request, hp] at hr
    | ok key =>
      rw [request_of_parse hp] at hr
      split at hr <;> simp at hr

/-- Where a list has a first element without a property, that element is determined. -/
theorem first_failure_unique {β : Type} {P : β → Prop} {before before' after after' : List β}
    {x y : β} (same : before ++ x :: after = before' ++ y :: after') (hx : ¬ P x) (hy : ¬ P y)
    (all : ∀ z ∈ before, P z) (all' : ∀ z ∈ before', P z) : before = before' ∧ x = y := by
  induction before generalizing before' with
  | nil =>
    cases before' with
    | nil => exact ⟨rfl, (List.cons.inj same).1⟩
    | cons z rest => exact absurd ((List.cons.inj same).1 ▸ all' z List.mem_cons_self) hx
  | cons z rest ih =>
    cases before' with
    | nil => exact absurd ((List.cons.inj same).1 ▸ all z List.mem_cons_self) hy
    | cons z' rest' =>
      obtain ⟨rfl, tails⟩ := List.cons.inj same
      obtain ⟨rfl, rfl⟩ := ih tails (fun w hw => all w (List.mem_cons_of_mem _ hw))
        (fun w hw => all' w (List.mem_cons_of_mem _ hw))
      exact ⟨rfl, rfl⟩

/-- A selection from patterns that parse fails at the first pattern for which the table has no
answer. -/
theorem select_eq_error_iff {t : HostTable α} (valid : t.Valid) {patterns : List String}
    (parsed : ∀ p ∈ patterns, ∃ key, parse p true = .ok key) {e : RouteError} :
    t.select patterns = .error e ↔
      ∃ before p after, patterns = before ++ p :: after ∧ (∀ q ∈ before, t.AnswersFor q) ∧
        ¬ t.AnswersFor p ∧ e = .noMatch p := by
  constructor
  · intro h
    rcases select_spec valid.trie patterns with
      ⟨part, hs, -⟩ | ⟨before, p, after, e', rfl, hs, hr, all⟩
    · simp [hs] at h
    · obtain rfl : e' = e := by simpa [hs] using h
      obtain ⟨key, hp⟩ := parsed p (by simp)
      exact ⟨before, p, after, rfl, fun q hq => (request_isOk_iff valid).1 (all q hq),
        (request_eq_error_iff valid hp).1 hr⟩
  · rintro ⟨before, p, after, rfl, all, failed, rfl⟩
    rcases select_spec valid.trie (before ++ p :: after) with
      ⟨part, -, h⟩ | ⟨before', p', after', e, same, hs, hr, all'⟩
    · exact absurd ((request_isOk_iff valid).1 (h.served p (by simp))) failed
    · obtain ⟨key, hp⟩ := parsed p' (by simp [same])
      obtain ⟨failed', rfl⟩ := (request_eq_error_iff valid hp).1 hr
      have first := first_failure_unique same failed failed' all
        fun q hq => (request_isOk_iff valid).1 (all' q hq)
      rw [hs, first.2]

/-- The star selects everything. -/
theorem select_star {t : HostTable α} (valid : t.Valid) (nonempty : t.isEmpty = false) :
    ∃ part, t.select ["*"] = .ok part ∧ part.trie.toList = t.trie.toList := by
  have star : parse "*" true = .ok .everything := rfl
  -- No key is shorter than that of the star, and no exact key has no segments.
  have all {b} : b ∈ t.contribution .everything ↔ b ∈ t.trie.toList := by
    refine ⟨fun hb => contribution_subset valid.trie _ hb, fun hb => ?_⟩
    refine (mem_contribution_wildcard valid.trie rfl).2 (.inr ⟨hb, List.nil_prefix, fun h => ?_⟩)
    exact (valid.named b hb).2 (by rw [h]; rfl) (by rw [h]; rfl)
  rcases select_spec valid.trie ["*"] with ⟨part, hs, h⟩ | ⟨before, p, after, e, same, -, hr, -⟩
  · refine ⟨part, hs, Trie.toList_congr h.valid.arena valid.trie.arena fun b => ?_⟩
    rw [← Trie.mem_toList h.valid.arena, ← Trie.mem_toList valid.trie.arena, h.mem]
    simp [star, all]
  · have hp : p ∈ ["*"] := by simp [same]
    rw [List.mem_singleton.1 hp, request_of_parse star, if_neg] at hr
    · cases hr
    · intro empty
      rw [isEmpty, Bool.eq_false_iff, Ne, valid.trie.isEmpty_iff] at nonempty
      exact nonempty (List.eq_nil_iff_forall_not_mem.2 fun b hb => by simpa [empty] using all.2 hb)

/-- A selection is a part of the table that answers like the table for every covered name. It
depends on the set of patterns alone, is its own selection, and fails for the first pattern without
an answer and for nothing else; a listener without names offers the whole table. -/
theorem select_refines (binds : List (String × α)) (patterns : List String) :
    (∀ part, (ofBinds binds).select patterns = .ok part →
      part.trie.toList ⊆ (ofBinds binds).trie.toList ∧
      (∀ p ∈ patterns, ∀ name, Hostname.Covers p name →
        part.resolve? name = (ofBinds binds).resolve? name) ∧
      (∀ patterns', (∀ p, p ∈ patterns' ↔ p ∈ patterns) →
        ∃ part', (ofBinds binds).select patterns' = .ok part' ∧
          part'.trie.toList = part.trie.toList) ∧
      ∃ part', part.select patterns = .ok part' ∧ part'.trie.toList = part.trie.toList) ∧
    ((∀ p ∈ patterns, ∃ key, parse p true = .ok key) → ∀ e,
      (ofBinds binds).select patterns = .error e ↔
        ∃ before p after, patterns = before ++ p :: after ∧
          (∀ q ∈ before, (ofBinds binds).AnswersFor q) ∧ ¬ (ofBinds binds).AnswersFor p ∧
          e = .noMatch p) ∧
    (∀ shown, (ofBinds binds).select patterns ≠ .error (.duplicateBinding shown)) ∧
    ((ofBinds binds).isEmpty = false → ∃ part, Site.offered (ofBinds binds) none = .ok part ∧
      part.trie.toList = (ofBinds binds).trie.toList) := by
  have valid := valid_ofBinds binds
  refine ⟨fun part hs => ?_, fun parsed e => select_eq_error_iff valid parsed,
    select_ne_duplicateBinding valid.trie patterns, fun nonempty => ?_⟩
  · have h : (ofBinds binds).IsSelection patterns part := by
      rcases select_spec valid.trie patterns with ⟨part', hs', h⟩ | ⟨_, _, _, e, -, hs', -⟩
      · obtain rfl : part' = part := by simpa [hs'] using hs
        exact h
      · simp [hs'] at hs
    exact ⟨h.subset valid.trie, fun p hp name => h.resolve?_eq valid.trie hp,
      fun patterns' => h.of_same_patterns valid.trie, h.again valid.trie⟩
  · obtain ⟨part, hs, same⟩ := select_star valid nonempty
    exact ⟨part, by rw [Site.offered, hs], same⟩

/-- For the names below `b.a` the wildcard above is selected, since the pattern is not bound. -/
theorem select_refines_above :
    ∃ part, (ofBinds [("*.a", 0), ("b.a", 1)]).select ["*.b.a"] = .ok part ∧
      part.resolve? "x.b.a" = some ⟨⟨["a"], true⟩, 0⟩ := by
  have covers : Hostname.Covers "*.b.a" "x.b.a" :=
    ⟨⟨["a", "b"], true⟩, ⟨["a", "b", "x"], false⟩, rfl, rfl, .inr ⟨rfl, by decide, by decide⟩⟩
  have answer : (ofBinds [("*.a", 0), ("b.a", 1)]).resolve? "x.b.a" = some ⟨⟨["a"], true⟩, 0⟩ := by
    decide
  obtain ⟨selected, failed, -⟩ := select_refines [("*.a", 0), ("b.a", 1)] ["*.b.a"]
  cases hs : (ofBinds [("*.a", 0), ("b.a", 1)]).select ["*.b.a"] with
  | ok part =>
    exact ⟨part, rfl, ((selected part hs).2.1 _ (by simp) _ covers).trans answer⟩
  | error e =>
    obtain ⟨before, p, after, same, -, nothing, -⟩ := (failed (by simp; exact ⟨_, rfl⟩) e).1 hs
    have hp : p ∈ ["*.b.a"] := by simp [same]
    exact absurd ⟨"x.b.a", List.mem_singleton.1 hp ▸ covers, by simp [answer]⟩ nothing

end HostTable

end Turnstile.Routing
