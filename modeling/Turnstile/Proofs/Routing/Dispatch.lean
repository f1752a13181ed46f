import Turnstile.Proofs.Routing.PathText
import Turnstile.Routing.PathTable

namespace Turnstile.Routing

namespace PathTable

open Pathname (parse candidate requested Matches Precedes)

variable {α : Type}

/-- The table after a run of bindings, of which any may be refused. -/
def ofBinds (binds : List (String × α)) : PathTable α :=
  binds.foldl (fun t bind => (t.bind bind.1 bind.2).toOption.getD t) .empty

def readable (binds : List (String × α)) : List (String × α) :=
  binds.filter fun bind => (parse bind.1 true).toOption.isSome

theorem parse_of_readable {binds : List (String × α)} {pattern : String} {value : α}
    (h : (pattern, value) ∈ readable binds) : ∃ key, parse pattern true = .ok key := by
  have read := (List.mem_filter.1 h).2
  cases hp : parse pattern true with
  | error e => simp [hp, Except.toOption] at read
  | ok key => exact ⟨key, rfl⟩

theorem trie_ofBinds (binds : List (String × α)) :
    (ofBinds binds).trie = Trie.ofAttempts (Trie.readPairs (parse · true) binds) :=
  Trie.trie_foldl_bind PathTable.trie PathTable.mk PathTable.bind rfl (fun _ => rfl)
    (fun _ _ _ => rfl)

/-- The patterns that can be read are the texts of their keys. -/
theorem readable_eq_map (binds : List (String × α)) :
    readable binds =
      (Trie.readPairs (parse · true) binds).map fun pair => (pair.1.pathText, pair.2) := by
  rw [readable, Trie.readPairs, List.map_filterMap, ← List.filterMap_eq_filter]
  refine congrArg (List.filterMap · binds) (funext fun bind => ?_)
  cases hp : parse bind.1 true with
  | error e => simp [Option.guard, hp, Except.toOption]
  | ok key => simp [Option.guard, hp, Except.toOption, (Pathname.parse_spec hp).1]

/-- A pattern has the value that is bound to its key. -/
theorem lookup_readable (binds : List (String × α)) {pattern : String} {key : Key}
    (h : parse pattern true = .ok key) :
    (readable binds).lookup pattern = (ofBinds binds).trie.find? key := by
  rw [readable_eq_map, trie_ofBinds, Trie.find?_ofAttempts, ← (Pathname.parse_spec h).1]
  apply lookup_map
  intro pair hpair same
  obtain ⟨pattern', -, h'⟩ := Trie.mem_readPairs.1 hpair
  rw [(Pathname.parse_spec h').1, (Pathname.parse_spec h).1] at same
  subst same
  exact Except.ok.inj (h'.symm.trans h)

theorem arena_ofBinds (binds : List (String × α)) : Trie.Arena (ofBinds binds).trie.nodes := by
  rw [trie_ofBinds]
  exact Trie.arena_ofAttempts _

/-- A key is bound if the pattern that it is read from is bound. -/
theorem find?_eq_some_iff {binds : List (String × α)} {key : Key} {value : α} :
    (ofBinds binds).trie.find? key = some value ↔
      parse key.pathText true = .ok key ∧ (readable binds).lookup key.pathText = some value := by
  constructor
  · intro bound
    have pair := bound
    rw [trie_ofBinds, Trie.find?_ofAttempts] at pair
    obtain ⟨pattern, -, read⟩ := Trie.mem_readPairs.1 (mem_of_lookup_eq_some pair)
    have shown := (Pathname.parse_spec read).1
    rw [shown, lookup_readable binds read]
    exact ⟨read, bound⟩
  · rintro ⟨read, bound⟩
    rwa [lookup_readable binds read] at bound

/-- A pattern that can be read is refused if it is bound already, and only then. -/
theorem bind_ofBinds (binds : List (String × α)) {pattern : String} {key : Key}
    (read : parse pattern true = .ok key) (value : α) :
    (ofBinds binds).bind pattern value =
      if ((readable binds).lookup pattern).isSome then .error (.duplicateBinding pattern)
      else .ok (ofBinds (binds ++ [(pattern, value)])) := by
  rw [lookup_readable binds read, trie_ofBinds, Trie.find?_ofAttempts]
  exact Trie.bind_foldl_bind PathTable.trie PathTable.mk PathTable.bind rfl (fun _ => rfl)
    (fun _ _ _ => rfl) read value

/-- A match of the trie has the key of a bound pattern that matches the path. -/
theorem mem_matching_candidate {binds : List (String × α)} {target : String} {t : Match α} :
    t ∈ (ofBinds binds).trie.matching (candidate target) ↔
      parse t.key.pathText true = .ok t.key ∧
        (readable binds).lookup t.key.pathText = some t.value ∧
        Matches t.key.pathText (requested target) ∧ t.consumed = t.key.length ∧
        t.remainder = (candidate target).drop t.key.length := by
  have bound : (ofBinds binds).trie.binding? t.key = some t.binding ↔
      parse t.key.pathText true = .ok t.key ∧
        (readable binds).lookup t.key.pathText = some t.value := by
    rw [← find?_eq_some_iff]
    exact Trie.binding?_key_iff (arena_ofBinds binds)
  rw [Trie.mem_matching (arena_ofBinds binds), bound, and_assoc]
  apply and_congr_right
  intro read
  rw [Pathname.matches_iff_covers read]

/-- The matches are the bound patterns that match the path, each with the part of the path that its
key accounts for and the part that is left. -/
theorem mem_dispatch {binds : List (String × α)} {target : String} {m : PathMatch α} :
    m ∈ (ofBinds binds).dispatch target ↔
      parse m.pattern true = .ok m.key ∧ (readable binds).lookup m.pattern = some m.value ∧
        Matches m.pattern (requested target) ∧ m.base = m.key.withWildcard false ∧
        m.remainder = (candidate target).drop m.key.length := by
  unfold dispatch dispatchKey
  rw [List.mem_map]
  constructor
  · rintro ⟨t, ht, rfl⟩
    obtain ⟨read, bound, hit, -, left⟩ := mem_matching_candidate.1 ht
    exact ⟨read, bound, hit, rfl, left⟩
  · rintro ⟨read, bound, hit, base, left⟩
    let t : Match α := ⟨⟨m.key, m.value⟩, m.key.length, m.remainder⟩
    refine ⟨t, mem_matching_candidate.2 ⟨read, bound, hit, rfl, left⟩, ?_⟩
    show (⟨m.key, m.value, m.key.withWildcard false, m.remainder⟩ : PathMatch α) = m
    rw [← base]

/-- The patterns that match come the more specific first. -/
theorem dispatch_descending (binds : List (String × α)) (target : String) :
    (((ofBinds binds).dispatch target).map PathMatch.pattern).Pairwise Precedes := by
  have descending : ((ofBinds binds).dispatch target).Pairwise fun m m' =>
      m.key.MoreSpecific m'.key := by
    unfold dispatch dispatchKey
    exact List.pairwise_map.2 (Trie.matching_descending (arena_ofBinds binds) (candidate target))
  refine List.pairwise_map.2 (descending.imp_of_mem fun {m m'} hm hm' more => ?_)
  obtain ⟨read, -, hit, -⟩ := mem_dispatch.1 hm
  obtain ⟨read', -, hit', -⟩ := mem_dispatch.1 hm'
  exact Pathname.precedes_of_moreSpecific read read'
    ((Pathname.matches_iff_covers read target).1 hit)
    ((Pathname.matches_iff_covers read' target).1 hit') more

/-- A match splits the path: what its pattern accounts for, then what is left, as keys and as
texts. -/
theorem base_append_remainder {binds : List (String × α)} {target : String} {m : PathMatch α}
    (hm : m ∈ (ofBinds binds).dispatch target) :
    m.base ++ m.remainder = candidate target ∧
      (if m.base.isEmpty then "" else m.basePath) ++
        (if m.remainder.isEmpty then "" else m.remainderPath) = requested target := by
  obtain ⟨read, -, hit, base, left⟩ := mem_dispatch.1 hm
  have covers := (Pathname.matches_iff_covers read target).1 hit
  have segments : (candidate target).segments = m.base.segments ++ m.remainder.segments := by
    rw [base, left]
    exact covers.segments_eq
  have exact : m.base.wildcard = false ∧ m.remainder.wildcard = false := by
    rw [base, left]
    exact ⟨rfl, rfl⟩
  refine ⟨Key.ext segments.symm exact.2, String.toList_inj.1 ?_⟩
  rw [String.toList_append, PathMatch.basePath, PathMatch.remainderPath,
    Key.pathText_or_nothing exact.1, Key.pathText_or_nothing exact.2, ← slashed_append, ← segments,
    Pathname.slashed_candidate]

/-- Dispatch in terms of texts. The matches of a request are the bound patterns that match its path,
each once and with its value; one without a star comes first, then stems with more components before
those with fewer. In each match the two parts make up the path again. -/
theorem dispatch_by_text (binds : List (String × α)) (target : String) :
    (((ofBinds binds).dispatch target).map PathMatch.pattern).Nodup ∧
      (∀ pattern value,
        (∃ m ∈ (ofBinds binds).dispatch target, m.pattern = pattern ∧ m.value = value) ↔
          (readable binds).lookup pattern = some value ∧ Matches pattern (requested target)) ∧
      (((ofBinds binds).dispatch target).map PathMatch.pattern).Pairwise Precedes ∧
      ∀ m ∈ (ofBinds binds).dispatch target, m.base ++ m.remainder = candidate target ∧
        (if m.base.isEmpty then "" else m.basePath) ++
          (if m.remainder.isEmpty then "" else m.remainderPath) = requested target := by
  refine ⟨(dispatch_descending binds target).imp Precedes.ne, fun pattern value => ?_,
    dispatch_descending binds target, fun m hm => base_append_remainder hm⟩
  constructor
  · rintro ⟨m, hm, rfl, rfl⟩
    obtain ⟨-, bound, hit, -⟩ := mem_dispatch.1 hm
    exact ⟨bound, hit⟩
  · rintro ⟨bound, hit⟩
    obtain ⟨key, read⟩ := parse_of_readable (mem_of_lookup_eq_some bound)
    let m : PathMatch α := ⟨key, value, key.withWildcard false, (candidate target).drop key.length⟩
    have shown : m.pattern = pattern := (Pathname.parse_spec read).1
    exact ⟨m, mem_dispatch.2 (shown ▸ ⟨read, bound, hit, rfl, rfl⟩), shown, rfl⟩

/-- A doubled slash is below the directory: its first half goes with the stem of the wildcard. -/
theorem dispatch_by_text_doubled_slash :
    let found := (ofBinds [("/*", 0), ("/a/", 1), ("/a/*", 2), ("/a/*", 3)]).dispatch "a//b?c"
    found.map (fun m => (m.pattern, m.value, m.basePath, m.remainderPath)) =
        [("/a/*", 2, "/a", "//b"), ("/*", 0, "/", "/a//b")] ∧
      requested "a//b?c" = "/a//b" ∧ Matches "/a/*" "/a//b" ∧
      ∃ m ∈ found, m.pattern = "/a/*" ∧ m.value = 2 := by
  intro found
  have path : requested "a//b?c" = "/a//b" := by decide
  have hit : Matches "/a/*" "/a//b" := .inr ⟨"/a", rfl, .inr ⟨"/b", rfl⟩⟩
  refine ⟨by decide, path, hit, ?_⟩
  have spec := dispatch_by_text [("/*", 0), ("/a/", 1), ("/a/*", 2), ("/a/*", 3)] "a//b?c"
  exact (spec.2.1 "/a/*" 2).2 ⟨by decide, path ▸ hit⟩

end PathTable

end Turnstile.Routing
