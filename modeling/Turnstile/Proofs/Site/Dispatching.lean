import Mathlib.Data.List.Pairwise
import Turnstile.Proofs.Site.Mounts

/-!
# Who answers a request

The host that a request is addressed to selects one entry of the settings (`Selected`): the one that
has it for a name, else the one with the longest wildcard above it, else the one with the lone star,
which also serves what is no host name. Only the mounts of this entry are tried. The answer is that
of the first application that does not decline, and there is none if there is no entry or if all of
them decline (`dispatch_by_settings`).
-/

namespace Turnstile

namespace Routing

open Hostname (Answer IsHostname presented)

/-- What a host gets if `bound` gives the values of the texts that are bound. -/
inductive Selected {α : Type} (bound : String → Option α) (host : String) :
    Option (String × α) → Prop
  | name {found : Option (String × α)} (hostname : IsHostname (presented host))
      (answer : Answer bound (presented host) found) : Selected bound host found
  | nameless (other : ¬ IsHostname (presented host)) :
      Selected bound host ((bound "*").map ("*", ·))

namespace Selected

variable {α : Type} {bound : String → Option α} {host : String} {found found' : Option (String × α)}

theorem unique (h : Selected bound host found) (h' : Selected bound host found') :
    found = found' := by
  cases h with
  | name hostname answer =>
    cases h' with
    | name _ answer' => exact answer.unique answer'
    | nameless other => exact absurd hostname other
  | nameless other =>
    cases h' with
    | name hostname => exact absurd hostname other
    | nameless => rfl

theorem map {β : Type} (f : α → β) (h : Selected bound host found) :
    Selected (fun text => (bound text).map f) host (found.map (Prod.map id f)) := by
  cases h with
  | name hostname answer => exact .name hostname (answer.map f)
  | nameless other =>
    have same : ((bound "*").map ("*", ·)).map (Prod.map id f) =
        ((bound "*").map f).map ("*", ·) := by
      rw [Option.map_map, Option.map_map]
      rfl
    rw [same]
    exact .nameless other

/-- What is selected is bound under its own text. -/
theorem bound_eq {text : String} {value : α} (h : Selected bound host (some (text, value))) :
    bound text = some value := by
  generalize whole : some (text, value) = found at h
  cases h with
  | name _ answer =>
    cases answer with
    | exact here | above _ _ here | star _ _ here =>
      cases whole
      exact here
    | nothing => cases whole
  | nameless =>
    obtain ⟨value', here, same⟩ := Option.map_eq_some_iff.1 whole.symm
    cases same
    exact here

end Selected

/-- A table and its fallback answer so. -/
theorem HostTable.selected_ofBinds {α : Type} (binds : List (String × α)) (host : String) :
    Selected (bound binds) host
      ((((ofBinds binds).resolve? host).or (ofBinds binds).fallback?).map entry) := by
  have fallback : (ofBinds binds).fallback?.map entry = (bound binds "*").map ("*", ·) := by
    rw [fallback?_eq (valid_ofBinds binds).trie, bound_star, Option.map_map]
    rfl
  by_cases hostname : IsHostname (presented host)
  · have answer := answer_of_resolve? binds hostname
    apply Selected.name hostname
    cases resolved : (ofBinds binds).resolve? host with
    | some b =>
      rw [resolved] at answer
      exact answer
    | none =>
      rw [resolved] at answer
      rw [Option.none_or, fallback]
      cases answer with
      | nothing free none_above no_star =>
        rw [no_star]
        exact .nothing free none_above no_star
  · rw [resolve?_eq_none hostname, Option.none_or, fallback]
    exact .nameless hostname

end Routing

namespace Site

open Routing Http

open Hostname (IsHostname presented spelled)

/-- The entry with a name of this spelling. -/
def hostNamed (s : Settings) (text : String) : Option Settings.Host :=
  s.hosts.find? fun h => (h.names.map spelled).contains text

namespace Dispatcher

variable {s : Settings} {d : Dispatcher} {table : Settings.Host → MountTable}

theorem mem_entries {name : String} {h : Settings.Host} :
    (name, h) ∈ entries s ↔ h ∈ s.hosts ∧ name ∈ h.names := by
  unfold entries
  rw [List.mem_flatMap]
  constructor
  · rintro ⟨h', mem, named⟩
    obtain ⟨name', present, same⟩ := List.mem_map.1 named
    cases same
    exact ⟨mem, present⟩
  · rintro ⟨mem, named⟩
    exact ⟨h, mem, List.mem_map_of_mem named⟩

/-- The names of the entries are as clear with the tables that are built for them. -/
theorem Built.clear_tables (built : Built s d table) :
    Clear (Hostname.parse · true) spelled ((entries s).map fun e => (e.1, table e.2)) := by
  apply built.clear.of_map_eq
  rw [List.map_map]
  rfl

theorem Built.bound_entries_iff (built : Built s d table) {text : String} {h : Settings.Host} :
    HostTable.bound (entries s) text = some h ↔
      h ∈ s.hosts ∧ ∃ name ∈ h.names, spelled name = text := by
  rw [HostTable.bound_eq_some_iff built.clear]
  simp only [mem_entries]
  constructor
  · rintro ⟨name, ⟨mem, named⟩, spelling⟩
    exact ⟨mem, name, named, spelling⟩
  · rintro ⟨mem, name, named, spelling⟩
    exact ⟨name, ⟨mem, named⟩, spelling⟩

/-- No other entry has a name of the same spelling. -/
theorem Built.hostNamed_eq (built : Built s d table) (text : String) :
    hostNamed s text = HostTable.bound (entries s) text := by
  have has (h : Settings.Host) : (h.names.map spelled).contains text = true ↔
      ∃ name ∈ h.names, spelled name = text := by
    rw [List.contains_iff_mem, List.mem_map]
  unfold hostNamed
  cases found : s.hosts.find? fun h => (h.names.map spelled).contains text with
  | some h =>
    have named := (has h).1
      (List.find?_some (p := fun h : Settings.Host => (h.names.map spelled).contains text) found)
    exact (built.bound_entries_iff.2 ⟨List.mem_of_find?_eq_some found, named⟩).symm
  | none =>
    cases bound : HostTable.bound (entries s) text with
    | none => rfl
    | some h =>
      obtain ⟨mem, named⟩ := built.bound_entries_iff.1 bound
      exact absurd ((has h).2 named) (List.find?_eq_none.1 found h mem)

theorem Built.hostNamed_eq_some_iff (built : Built s d table) {text : String} {h : Settings.Host} :
    hostNamed s text = some h ↔ h ∈ s.hosts ∧ ∃ name ∈ h.names, spelled name = text := by
  rw [built.hostNamed_eq, built.bound_entries_iff]

theorem Built.exists_selected (built : Built s d table) (host : String) :
    ∃ found, Selected (hostNamed s) host found := by
  have same : hostNamed s = HostTable.bound (entries s) := funext built.hostNamed_eq
  rw [same]
  exact ⟨_, HostTable.selected_ofBinds (entries s) host⟩

/-- The entry of the dispatcher is the table of what the host selects. -/
theorem Built.entry?_eq (built : Built s d table) {host : String}
    {found : Option (String × Settings.Host)} (selected : Selected (hostNamed s) host found) :
    (d.entry? host).map HostTable.entry = found.map (Prod.map id table) := by
  have tables : HostTable.bound ((entries s).map fun e => (e.1, table e.2)) =
      fun text => (hostNamed s text).map table := by
    funext text
    ext value
    rw [HostTable.bound_eq_some_iff built.clear_tables, built.hostNamed_eq, Option.map_eq_some_iff]
    simp only [HostTable.bound_eq_some_iff built.clear, List.mem_map, Prod.exists, Prod.mk.injEq]
    constructor
    · rintro ⟨name, ⟨_, h, mem, rfl, rfl⟩, spelling⟩
      exact ⟨h, ⟨_, mem, spelling⟩, rfl⟩
    · rintro ⟨h, ⟨name, mem, spelling⟩, rfl⟩
      exact ⟨name, ⟨name, h, mem, rfl, rfl⟩, spelling⟩
  have answered := HostTable.selected_ofBinds ((entries s).map fun e => (e.1, table e.2)) host
  rw [tables, ← built.hosts] at answered
  exact answered.unique (selected.map table)

/-- A request is answered by the mounts of what its host selects. -/
theorem Built.dispatch?_eq (built : Built s d table) (r : Request)
    {found : Option (String × Settings.Host)}
    (selected : Selected (hostNamed s) ((requestHost? r).getD "") found) :
    d.dispatch? r = found.bind fun e => ((table e.2).dispatch r.uri.path).findSome? fun m =>
      m.value.answer? (callOf r ((requestHost? r).getD "") e.1 m) := by
  have through (entry : Option (Binding MountTable)) :
      (entry.bind fun b => (b.value.dispatch r.uri.path).findSome? fun m =>
          m.value.answer? (callAt r ((requestHost? r).getD "") b m)) =
        (entry.map HostTable.entry).bind fun e => (e.2.dispatch r.uri.path).findSome? fun m =>
          m.value.answer? (callOf r ((requestHost? r).getD "") e.1 m) := by
    cases entry <;> rfl
  rw [dispatch?, through, built.entry?_eq selected]
  cases found <;> rfl

section

variable {r : Request} {host text : String} {h : Settings.Host} {m m' : Settings.Mount}
  {a a' : Application} {c c' : Call}

/-- Every mount that matches is tried, with one application and one call. -/
theorem Built.tried_once (built : Built s d table) (mem : h ∈ s.hosts) (mounted : m ∈ h.mounts)
    (hit : Pathname.Matches m.path (Pathname.requested r.uri.path)) :
    ∃ a c, Tried s r host text h m a c ∧
      ∀ a' c', Tried s r host text h m a' c' → a' = a ∧ c' = c := by
  obtain ⟨a, provides⟩ := built.provided h mem m mounted
  obtain ⟨base, rest, parts⟩ := Pathname.matches_iff_parts.1 hit
  refine ⟨a, ⟨r, host, text, m.path, base, rest⟩,
    ⟨mounted, provides, parts, rfl, rfl, rfl, rfl⟩, fun a' c' tried => ?_⟩
  obtain ⟨sameBase, sameRest⟩ := tried.parts.unique parts
  obtain ⟨request, host', pattern, path, base', rest'⟩ := c'
  obtain ⟨-, provides', -, rfl, rfl, rfl, rfl⟩ := tried
  exact ⟨built.provides_once _ _ _ provides' provides, by rw [← sameBase, ← sameRest]⟩

/-- Of two mounts that are tried one precedes the other. -/
theorem Built.precedes_or (built : Built s d table) (mem : h ∈ s.hosts)
    (tried : Tried s r host text h m a c) (tried' : Tried s r host text h m' a' c')
    (other : m.path ≠ m'.path) :
    Pathname.Precedes m.path m'.path ∨ Pathname.Precedes m'.path m.path := by
  obtain ⟨binds, -, clear, mounted⟩ := built.mounts h mem
  obtain ⟨pm, hm, shown, -, -⟩ := exists_match clear mounted tried
  obtain ⟨pm', hm', shown', -, -⟩ := exists_match clear mounted tried'
  have symmetric : Std.Symm fun p q => Pathname.Precedes p q ∨ Pathname.Precedes q p :=
    ⟨fun _ _ => Or.symm⟩
  have sorted := (PathTable.dispatch_descending binds r.uri.path).imp (S := fun p q =>
    Pathname.Precedes p q ∨ Pathname.Precedes q p) Or.inl
  have either := sorted.forall (List.mem_map_of_mem hm) (List.mem_map_of_mem hm')
    (by rwa [shown, shown'])
  rwa [shown, shown'] at either

end

/-- What a dispatcher answers, told from the settings that it was built from. The host selects one
entry. Every mount of the entry that matches the path is tried with the application of its name,
which is called with the host pattern, the mount and the parts of the path of that mount. The answer
is that of the mount that does not decline and before which all others do. There is none if no entry
is selected, or if all mounts of the entry decline, whatever other entries have to say. -/
theorem dispatch_by_settings {s : Settings} {d : Dispatcher} (fits : s.fault? = none)
    (made : ofSettings s = .ok d) (r : Request) :
    let host := (requestHost? r).getD ""
    (∃ found, Selected (hostNamed s) host found ∧
      ∀ found', Selected (hostNamed s) host found' → found' = found) ∧
    (∀ text h, hostNamed s text = some h ↔ h ∈ s.hosts ∧ ∃ name ∈ h.names, spelled name = text) ∧
    (∀ text, ∀ h ∈ s.hosts,
      (∀ m ∈ h.mounts, Pathname.Matches m.path (Pathname.requested r.uri.path) →
        ∃ a c, Tried s r host text h m a c ∧
          ∀ a' c', Tried s r host text h m a' c' → a' = a ∧ c' = c) ∧
      ∀ m a c m' a' c', Tried s r host text h m a c → Tried s r host text h m' a' c' →
        m.path ≠ m'.path →
          Pathname.Precedes m.path m'.path ∨ Pathname.Precedes m'.path m.path) ∧
    (∀ response, d.dispatch? r = some response ↔
      ∃ text h m a c, Selected (hostNamed s) host (some (text, h)) ∧
        Tried s r host text h m a c ∧ a.answer? c = some response ∧
        ∀ m' a' c', Tried s r host text h m' a' c' → Pathname.Precedes m'.path m.path →
          a'.answer? c' = none) ∧
    (d.dispatch? r = none ↔ Selected (hostNamed s) host none ∨
      ∃ text h, Selected (hostNamed s) host (some (text, h)) ∧
        ∀ m a c, Tried s r host text h m a c → a.answer? c = none) := by
  intro host
  obtain ⟨table, built⟩ := built_of_ofSettings fits made
  obtain ⟨found, selected⟩ := built.exists_selected host
  have only (found') (h : Selected (hostNamed s) host found') : found' = found := h.unique selected
  have answer := built.dispatch?_eq r selected
  refine ⟨⟨found, selected, only⟩, fun text h => built.hostNamed_eq_some_iff, ?_, ?_, ?_⟩
  · intro text h mem
    exact ⟨fun m mounted hit => built.tried_once mem mounted hit,
      fun m a c m' a' c' tried tried' other => built.precedes_or mem tried tried' other⟩
  · intro response
    rw [answer]
    cases found with
    | none =>
      constructor
      · intro h
        cases h
      · rintro ⟨text, h, -, -, -, selected', -⟩
        cases only _ selected'
    | some e =>
      obtain ⟨text, h⟩ := e
      have mem := (built.hostNamed_eq_some_iff.1 selected.bound_eq).1
      obtain ⟨binds, whole, clear, mounted⟩ := built.mounts h mem
      rw [Option.bind_some, whole, findSome?_dispatch_eq_some_iff clear mounted]
      constructor
      · rintro ⟨m, a, c, first⟩
        exact ⟨text, h, m, a, c, selected, first⟩
      · rintro ⟨text', h', m, a, c, selected', first⟩
        cases only _ selected'
        exact ⟨m, a, c, first⟩
  · rw [answer]
    cases found with
    | none => exact iff_of_true rfl (.inl selected)
    | some e =>
      obtain ⟨text, h⟩ := e
      have mem := (built.hostNamed_eq_some_iff.1 selected.bound_eq).1
      obtain ⟨binds, whole, clear, mounted⟩ := built.mounts h mem
      rw [Option.bind_some, whole, findSome?_dispatch_eq_none_iff clear mounted]
      constructor
      · intro all
        exact .inr ⟨text, h, selected, all⟩
      · rintro (selected' | ⟨text', h', selected', all⟩)
        · cases only _ selected'
        · cases only _ selected'
          exact all

/-- The first mount declines what lies below it, and the redirect after it answers. Where no mount of
the entry matches nobody answers, though the entry with the star would. -/
theorem dispatch_by_settings_declined :
    let s : Settings :=
      { server := { listeners := [⟨"127.0.0.1:80", false, none⟩] }
        applications := [⟨"page", .text "hello" 200 "text/plain" true⟩,
          ⟨"moved", .redirect "https://new.example.com/" 302⟩, ⟨"echo", .echo⟩]
        hosts := [⟨["*"], [⟨"/*", "echo"⟩]⟩,
          ⟨["a.Example.com", "b.example.com"], [⟨"/a/*", "moved"⟩, ⟨"/a/b/*", "page"⟩]⟩] }
    let request (path : String) : Request :=
      ⟨"GET", ⟨"A.example.com.", path, none⟩, [], .v4 [127, 0, 0, 1] 50000, false⟩
    let found : Response := ⟨302, [("location", "https://new.example.com/b/c")], ""⟩
    s.fault? = none ∧ ∃ d, ofSettings s = .ok d ∧ d.dispatch? (request "/a/b/c") = some found ∧
      (∃ text h m a c, Selected (hostNamed s) "A.example.com." (some (text, h)) ∧
        Tried s (request "/a/b/c") "A.example.com." text h m a c ∧ a.answer? c = some found) ∧
      d.dispatch? (request "/c") = none := by
  intro s request found
  have fits : s.fault? = none := by decide +kernel
  have answers : (ofSettings s).toOption.map (fun d =>
      (d.dispatch? (request "/a/b/c"), d.dispatch? (request "/c"))) = some (some found, none) := by
    decide +kernel
  have host : (requestHost? (request "/a/b/c")).getD "" = "A.example.com." := by decide +kernel
  obtain ⟨d, ok, both⟩ := Option.map_eq_some_iff.1 answers
  obtain ⟨answered, nobody⟩ := Prod.mk.inj both
  have made : ofSettings s = .ok d := by
    generalize ofSettings s = outcome at ok
    cases outcome with
    | error e => cases ok
    | ok d' => exact congrArg Except.ok (Option.some.inj ok)
  obtain ⟨-, -, -, some_iff, -⟩ := dispatch_by_settings fits made (request "/a/b/c")
  rw [host] at some_iff
  obtain ⟨text, h, m, a, c, selected, tried, answers, -⟩ := (some_iff found).1 answered
  exact ⟨fits, d, made, answered, ⟨text, h, m, a, c, selected, tried, answers⟩, nobody⟩

end Dispatcher

end Site

end Turnstile
