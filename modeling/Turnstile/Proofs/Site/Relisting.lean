import Turnstile.Proofs.Routing.Mapping
import Turnstile.Proofs.Site.Dispatching

/-!
# The listing says everything

What a table lists can be bound again under the listed texts, and the table that this makes answers
as the first one (`PathTable.sameAnswers_relisted`, `HostTable.toList_relisted`). So the settings
whose hosts are written off a dispatcher's listing, one entry for each pattern, are accepted and
make a dispatcher with this listing that answers every request as the first one
(`answers_by_listing`). How entries shared their mounts, how names were written and in which order
everything stood is of no effect.
-/

namespace Turnstile

namespace Routing

/-! ### Tries with the same keys -/

namespace Trie

variable {α β : Type}

/-- If what a trie finds goes through a function, so does what it lists. -/
theorem toList_of_find?_map {t : Trie α} {t' : Trie β} (valid : t.Valid) (valid' : t'.Valid)
    (f : α → β) (same : ∀ key, t'.find? key = (t.find? key).map f) :
    t'.toList = t.toList.map fun b => ⟨b.key, f b.value⟩ := by
  have ascending : (t.toList.map fun b => (⟨b.key, f b.value⟩ : Binding β)).Pairwise
      fun b b' => b.key.Before b'.key :=
    List.pairwise_map.2 (toList_ascending valid.arena)
  have distinct : (t.toList.map fun b => (⟨b.key, f b.value⟩ : Binding β)).Nodup :=
    ascending.imp fun h => mt (congrArg Binding.key) h.ne
  refine List.Perm.eq_of_pairwise (fun b b' _ _ h h' => absurd h' h.asymm)
    (toList_ascending valid'.arena) ascending ?_
  refine (List.perm_ext_iff_of_nodup (toList_nodup valid'.arena) distinct).2 fun b => ?_
  rw [mem_toList_iff_find? valid'.arena, same, Option.map_eq_some_iff, List.mem_map]
  constructor
  · rintro ⟨value, found, image⟩
    exact ⟨⟨b.key, value⟩, (mem_toList_iff_find? valid.arena).2 found, by rw [image]⟩
  · rintro ⟨b', mem, rfl⟩
    exact ⟨b'.value, (mem_toList_iff_find? valid.arena).1 mem, rfl⟩

end Trie

/-! ### Bindings that go through -/

namespace Clear

variable {α : Type} {read : String → Except RouteError Key} {spelling : String → String}
  {binds more : List (String × α)}

theorem left (clear : Clear read spelling (binds ++ more)) : Clear read spelling binds := by
  refine ⟨fun b mem => clear.readable b (List.mem_append_left _ mem), ?_⟩
  have distinct := clear.distinct
  rw [List.map_append] at distinct
  exact distinct.of_append_left

theorem apart (clear : Clear read spelling (binds ++ more)) {b b' : String × α} (mem : b ∈ binds)
    (mem' : b' ∈ more) : spelling b.1 ≠ spelling b'.1 := by
  have distinct := clear.distinct
  rw [List.map_append] at distinct
  exact (List.nodup_append.1 distinct).2.2 _ (List.mem_map_of_mem mem) _ (List.mem_map_of_mem mem')

end Clear

/-! ### Tables from their listings -/

namespace PathTable

open Pathname (parse)

variable {α : Type}

theorem valid_ofBinds (binds : List (String × α)) : (ofBinds binds).trie.Valid := by
  rw [trie_ofBinds]
  exact Trie.valid_ofAttempts _

theorem mem_toList {binds : List (String × α)} {pattern : String} {value : α} :
    (pattern, value) ∈ (ofBinds binds).toList ↔ (readable binds).lookup pattern = some value := by
  have arena := arena_ofBinds binds
  rw [toList, List.mem_map]
  constructor
  · rintro ⟨b, mem, same⟩
    cases same
    exact (find?_eq_some_iff.1 ((Trie.mem_toList_iff_find? arena).1 mem)).2
  · intro bound
    obtain ⟨key, read⟩ := parse_of_readable (mem_of_lookup_eq_some bound)
    rw [lookup_readable binds read] at bound
    exact ⟨⟨key, value⟩, (Trie.mem_toList_iff_find? arena).2 bound,
      by rw [(Pathname.parse_spec read).1]⟩

/-- The listed patterns can be bound again. -/
theorem clear_toList (binds : List (String × α)) :
    Clear (parse · true) id (ofBinds binds).toList := by
  have arena := arena_ofBinds binds
  have read {b} (mem : b ∈ (ofBinds binds).trie.toList) : parse b.key.pathText true = .ok b.key :=
    (find?_eq_some_iff.1 ((Trie.mem_toList_iff_find? arena).1 mem)).1
  constructor
  · intro b mem
    obtain ⟨b', mem', rfl⟩ := List.mem_map.1 mem
    exact ⟨b'.key, read mem'⟩
  · rw [toList, List.map_map]
    refine List.pairwise_map.2 ((Trie.toList_ascending arena).imp_of_mem ?_)
    intro b b' mem mem' before same
    have again : parse b.key.pathText true = .ok b'.key := by
      rw [show b.key.pathText = b'.key.pathText from same]
      exact read mem'
    exact before.ne (Except.ok.inj ((read mem).symm.trans again))

def relisted (t : PathTable α) : PathTable α := ofBinds t.toList

/-- It answers as the table itself. -/
theorem sameAnswers_relisted (binds : List (String × α)) :
    Trie.SameAnswers (ofBinds binds).relisted.trie (ofBinds binds).trie := by
  refine Trie.sameAnswers_of_find? (valid_ofBinds _) (valid_ofBinds binds) fun key => ?_
  ext value
  rw [relisted, find?_eq_some_iff, find?_eq_some_iff, lookup_readable_iff (clear_toList binds),
    mem_toList]

theorem toList_relisted (binds : List (String × α)) :
    (ofBinds binds).relisted.toList = (ofBinds binds).toList := by
  rw [toList, (sameAnswers_relisted binds).toList, ← toList]

theorem dispatch_relisted (binds : List (String × α)) (target : String) :
    (ofBinds binds).relisted.dispatch target = (ofBinds binds).dispatch target := by
  rw [dispatch, dispatchKey, (sameAnswers_relisted binds).matching, ← dispatchKey, ← dispatch]

theorem bind_of_clear {binds : List (String × α)} {pattern : String} {value : α}
    (clear : Clear (parse · true) id (binds ++ [(pattern, value)])) :
    (ofBinds binds).bind pattern value = .ok (ofBinds (binds ++ [(pattern, value)])) := by
  obtain ⟨key, read⟩ := clear.readable (pattern, value) (by simp)
  rw [bind_ofBinds binds read, if_neg]
  intro bound
  obtain ⟨other, found⟩ := Option.isSome_iff_exists.1 bound
  exact clear.apart ((lookup_readable_iff clear.left).1 found) List.mem_cons_self rfl

end PathTable

namespace HostTable

open Hostname (parse spelled Named)

variable {α β : Type}

theorem named_of_find? {binds : List (String × α)} {key : Key} {value : α}
    (found : (ofBinds binds).trie.find? key = some value) : Named key := by
  rw [trie_ofBinds, Trie.find?_ofAttempts] at found
  obtain ⟨pattern, -, read⟩ := Trie.mem_readPairs.1 (mem_of_lookup_eq_some found)
  exact Hostname.labels_of_parse read

theorem spelled_hostText {key : Key} (named : Named key) : spelled key.hostText = key.hostText :=
  (Hostname.hostText_of_parse (Hostname.parse_hostText named)).symm

theorem named_of_mem {binds : List (String × α)} {b : Binding α}
    (mem : b ∈ (ofBinds binds).trie.toList) : Named b.key :=
  named_of_find? ((Trie.mem_toList_iff_find? (valid_ofBinds binds).trie.arena).1 mem)

theorem mem_toList {binds : List (String × α)} {text : String} {value : α} :
    (text, value) ∈ (ofBinds binds).toList ↔ bound binds text = some value := by
  have arena := (valid_ofBinds binds).trie.arena
  rw [toList, List.mem_map]
  constructor
  · rintro ⟨b, mem, same⟩
    cases same
    rw [bound_hostText binds (named_of_mem mem)]
    exact (Trie.mem_toList_iff_find? arena).1 mem
  · intro here
    have listed := mem_of_lookup_eq_some here
    obtain ⟨⟨key, value'⟩, pair, same⟩ := List.mem_map.1 listed
    cases same
    obtain ⟨pattern, -, read⟩ := Trie.mem_readPairs.1 pair
    rw [bound_hostText binds (Hostname.labels_of_parse read)] at here
    exact ⟨⟨key, value'⟩, (Trie.mem_toList_iff_find? arena).2 here, rfl⟩

theorem spelled_of_mem_toList {binds : List (String × α)} {text : String} {value : α}
    (listed : (text, value) ∈ (ofBinds binds).toList) : spelled text = text := by
  obtain ⟨b, mem, same⟩ := List.mem_map.1 listed
  cases same
  exact spelled_hostText (named_of_mem mem)

/-- The listed patterns can be bound again, to whatever values. -/
theorem clear_toList (binds : List (String × α)) (f : α → β) :
    Clear (parse · true) spelled ((ofBinds binds).toList.map (Prod.map id f)) := by
  have arena := (valid_ofBinds binds).trie.arena
  have listed : Clear (parse · true) spelled (ofBinds binds).toList := by
    constructor
    · intro b mem
      obtain ⟨b', mem', rfl⟩ := List.mem_map.1 mem
      exact ⟨b'.key, Hostname.parse_hostText (named_of_mem mem')⟩
    · rw [toList, List.map_map]
      refine List.pairwise_map.2 ((Trie.toList_ascending arena).imp_of_mem ?_)
      intro b b' mem mem' before same
      have texts : b.key.hostText = b'.key.hostText := by
        rw [← spelled_hostText (named_of_mem mem), ← spelled_hostText (named_of_mem mem')]
        exact same
      exact before.ne ((Hostname.hostText_inj (named_of_mem mem) (named_of_mem mem')).1 texts)
  apply listed.of_map_eq
  simp [Function.comp_def]

section

variable (binds : List (String × α)) (f : α → β)

/-- What is bound again goes through the function. -/
theorem bound_relisted (text : String) :
    bound ((ofBinds binds).toList.map (Prod.map id f)) text = (bound binds text).map f := by
  ext value
  rw [bound_eq_some_iff (clear_toList binds f), Option.map_eq_some_iff]
  simp only [List.mem_map, Prod.exists, Prod.map, id_eq, Prod.mk.injEq]
  constructor
  · rintro ⟨_, ⟨name, v, mem, rfl, image⟩, spelling⟩
    rw [spelled_of_mem_toList mem] at spelling
    exact ⟨v, spelling ▸ mem_toList.1 mem, image⟩
  · rintro ⟨v, here, image⟩
    have mem := mem_toList.2 here
    exact ⟨text, ⟨text, v, mem, rfl, image⟩, spelled_of_mem_toList mem⟩

theorem find?_relisted (key : Key) :
    (ofBinds ((ofBinds binds).toList.map (Prod.map id f))).trie.find? key =
      ((ofBinds binds).trie.find? key).map f := by
  by_cases named : Named key
  · rw [← bound_hostText _ named, ← bound_hostText _ named, bound_relisted]
  · have nothing {γ : Type} (binds : List (String × γ)) : (ofBinds binds).trie.find? key = none :=
      Option.eq_none_iff_forall_ne_some.2 fun _ found => named (named_of_find? found)
    rw [nothing, nothing, Option.map_none]

theorem toList_relisted :
    (ofBinds ((ofBinds binds).toList.map (Prod.map id f))).toList =
      (ofBinds binds).toList.map (Prod.map id f) := by
  rw [toList, Trie.toList_of_find?_map (valid_ofBinds binds).trie (valid_ofBinds _).trie f
    (find?_relisted binds f), toList, List.map_map, List.map_map]
  rfl

/-- Hosts select the same patterns. -/
theorem selected_relisted (host : String) :
    let t := ofBinds ((ofBinds binds).toList.map (Prod.map id f))
    ((t.resolve? host).or t.fallback?).map entry =
      ((((ofBinds binds).resolve? host).or (ofBinds binds).fallback?).map entry).map
        (Prod.map id f) := by
  have again := selected_ofBinds ((ofBinds binds).toList.map (Prod.map id f)) host
  rw [funext (bound_relisted binds f)] at again
  exact again.unique ((selected_ofBinds binds host).map f)

end

theorem bind_of_clear {binds : List (String × α)} {pattern : String} {value : α}
    (clear : Clear (parse · true) spelled (binds ++ [(pattern, value)])) :
    (ofBinds binds).bind pattern value = .ok (ofBinds (binds ++ [(pattern, value)])) := by
  obtain ⟨key, read⟩ := clear.readable (pattern, value) (by simp)
  rw [bind_ofBinds binds read, if_neg]
  intro occupied
  obtain ⟨other, found⟩ := Option.isSome_iff_exists.1 occupied
  obtain ⟨name, mem, spelling⟩ := (bound_eq_some_iff clear.left).1 found
  exact clear.apart mem List.mem_cons_self (spelling.trans (Hostname.hostText_of_parse read))

end HostTable

end Routing

namespace Site

open Routing Http
open Hostname (spelled)

/-! ### Building again -/

theorem Application.name_of_ofSettings {x : Settings.Application} {a : Application}
    (made : Application.ofSettings x = .ok a) : a.name = x.name := by
  unfold Application.ofSettings at made
  split at made
  · cases made
  · cases made
    rfl

namespace Dispatcher

/-- The settings with hosts as they are listed: each pattern in an entry of its own. -/
def relisted (s : Settings) (listing : List ListedHost) : Settings :=
  { s with
    hosts := listing.map fun h => ⟨[h.pattern], h.mounts.map fun m => ⟨m.path, m.application⟩⟩ }

/-- The tables of a dispatcher, each made again from what it lists. -/
def rebuilt (d : Dispatcher) : Dispatcher :=
  ⟨HostTable.ofBinds (d.hosts.toList.map (Prod.map id PathTable.relisted))⟩

/-- What a request is offered to, one after another, and how it is presented there. -/
def attempts (d : Dispatcher) (r : Request) : List (Application × Call) :=
  let host := (requestHost? r).getD ""
  match d.entry? host with
  | none => []
  | some entry => (entry.value.dispatch r.uri.path).map fun m => (m.value, callAt r host entry m)

theorem dispatch?_eq_findSome? (d : Dispatcher) (r : Request) :
    d.dispatch? r = (d.attempts r).findSome? fun (a, c) => a.answer? c := by
  unfold dispatch? attempts
  dsimp only
  cases d.entry? ((requestHost? r).getD "") with
  | none => rfl
  | some entry =>
    rw [Option.bind_some, List.findSome?_map]
    rfl

section

variable {applications : Applications}

theorem bindMounts_of_clear {binds more : List (String × Application)}
    (clear : Clear (Pathname.parse · true) id (binds ++ more))
    (known : ∀ b ∈ more, applications.lookup b.2.name = some b.2) :
    bindMounts applications (PathTable.ofBinds binds) (more.map fun b => ⟨b.1, b.2.name⟩) =
      .ok (PathTable.ofBinds (binds ++ more)) := by
  induction more generalizing binds with
  | nil => rw [List.map_nil, bindMounts, List.append_nil]
  | cons b rest ih =>
    obtain ⟨first, others⟩ := List.forall_mem_cons.1 known
    rw [List.append_cons] at clear ⊢
    rw [List.map_cons, bindMounts]
    dsimp only
    rw [first]
    dsimp only
    rw [PathTable.bind_of_clear clear.left]
    exact ih clear others

theorem bindHosts_of_clear {binds : List (String × MountTable)} {more : List (String × MountTable)}
    (clear : Clear (Hostname.parse · true) spelled
      (binds ++ more.map (Prod.map id PathTable.relisted)))
    (mounts : ∀ e ∈ more, Clear (Pathname.parse · true) id e.2.toList)
    (known : ∀ e ∈ more, ∀ b ∈ e.2.toList, applications.lookup b.2.name = some b.2) :
    bindHosts applications (HostTable.ofBinds binds)
        (more.map fun e => ⟨[e.1], e.2.toList.map fun b => ⟨b.1, b.2.name⟩⟩) =
      .ok (HostTable.ofBinds (binds ++ more.map (Prod.map id PathTable.relisted))) := by
  induction more generalizing binds with
  | nil => rw [List.map_nil, bindHosts, List.map_nil, List.append_nil]
  | cons e rest ih =>
    obtain ⟨first, others⟩ := List.forall_mem_cons.1 known
    obtain ⟨own, clears⟩ := List.forall_mem_cons.1 mounts
    have whole : bindMounts applications .empty (e.2.toList.map fun b => ⟨b.1, b.2.name⟩) =
        .ok e.2.relisted := @bindMounts_of_clear _ [] _ own first
    rw [List.map_cons, List.append_cons] at clear
    rw [List.map_cons, List.map_cons, List.append_cons, bindHosts]
    dsimp only
    rw [whole]
    dsimp only
    rw [bindNames]
    have bound := HostTable.bind_of_clear clear.left
    dsimp only [Prod.map, id_eq] at bound ⊢
    rw [bound]
    exact ih clear clears others

end

/-! ### The listing -/

variable {s : Settings} {d : Dispatcher} {table : Settings.Host → MountTable}

/-- Each listed table was built from mounts whose applications the settings provide. -/
theorem Built.listed (built : Built s d table) {text : String} {mounts : MountTable}
    (mem : (text, mounts) ∈ d.hosts.toList) :
    (∃ binds, mounts = PathTable.ofBinds binds) ∧
      ∀ b ∈ mounts.toList, Provides s b.2.name b.2 := by
  rw [built.hosts, HostTable.mem_toList, HostTable.bound_eq_some_iff built.clear_tables] at mem
  obtain ⟨name, present, -⟩ := mem
  obtain ⟨⟨name', h⟩, entry, same⟩ := List.mem_map.1 present
  cases same
  obtain ⟨binds, whole, clear, mounted⟩ := built.mounts h (mem_entries.1 entry).1
  refine ⟨⟨binds, whole⟩, ?_⟩
  rintro ⟨path, a⟩ listed
  dsimp only at listed
  rw [whole, PathTable.mem_toList, PathTable.lookup_readable_iff clear, mounted] at listed
  obtain ⟨m, -, -, x, known, -, made⟩ := listed
  exact ⟨x, known, (Application.name_of_ofSettings made).symm, made⟩

theorem hosts_relisted (s : Settings) (d : Dispatcher) :
    (relisted s d.listing).hosts = d.hosts.toList.map fun e =>
      ⟨[e.1], e.2.toList.map fun b => ⟨b.1, b.2.name⟩⟩ := by
  simp only [relisted, listing, List.map_map, Function.comp_def]

/-- What is listed fits together as the settings did. -/
theorem fault?_relisted (fits : s.fault? = none) (built : Built s d table) :
    (relisted s d.listing).fault? = none := by
  obtain ⟨listeners, certificates, repeats, -, buckets, data⟩ :=
    Settings.fault?_eq_none_iff.1 fits
  refine Settings.fault?_eq_none_iff.2 ⟨listeners, certificates, repeats, ?_, buckets, data⟩
  rw [List.findSome?_eq_none_iff]
  intro h mem
  rw [hosts_relisted] at mem
  obtain ⟨⟨text, mounts⟩, listed, rfl⟩ := List.mem_map.1 mem
  unfold Settings.hostFault?
  rw [if_neg (by simp)]
  rw [Option.map_eq_none_iff, List.find?_eq_none]
  intro m mounted
  obtain ⟨b, mem, rfl⟩ := List.mem_map.1 mounted
  obtain ⟨x, known, name, -⟩ := (built.listed listed).2 b mem
  simp only [Bool.not_eq_true', Bool.not_eq_false, List.contains_iff_mem]
  exact name ▸ List.mem_map_of_mem known

/-- The settings that are written off a listing are accepted, and make a dispatcher with the same
entries, each with its table listed again. -/
theorem ofSettings_relisted (fits : s.fault? = none) (made : ofSettings s = .ok d) :
    ofSettings (relisted s d.listing) = .ok d.rebuilt := by
  obtain ⟨table, built⟩ := built_of_ofSettings fits made
  unfold ofSettings at made
  split at made
  · cases made
  · next applications ready =>
    have known : ∀ e ∈ d.hosts.toList, ∀ b ∈ e.2.toList,
        applications.lookup b.2.name = some b.2 := fun e mem b listed =>
      (lookup_applications_iff fits ready).2 ((built.listed mem).2 b listed)
    have mounts : ∀ e ∈ d.hosts.toList, Clear (Pathname.parse · true) id e.2.toList := by
      intro e mem
      obtain ⟨⟨binds, whole⟩, -⟩ := built.listed mem
      rw [whole]
      exact PathTable.clear_toList binds
    have clear : Clear (Hostname.parse · true) spelled
        (d.hosts.toList.map (Prod.map id PathTable.relisted)) := by
      rw [built.hosts]
      exact HostTable.clear_toList _ _
    have bound := @bindHosts_of_clear _ [] _ clear mounts known
    rw [← hosts_relisted s d, List.nil_append] at bound
    have applied : (relisted s d.listing).applications = s.applications := rfl
    rw [ofSettings, applied, ready]
    dsimp only
    rw [show HostTable.empty = HostTable.ofBinds [] from rfl, bound]
    rfl

/-- A dispatcher and the one that its listing makes select tables that answer alike. -/
theorem Built.entry?_rebuilt (built : Built s d table) (host : String) :
    (d.rebuilt.entry? host).map HostTable.entry =
      ((d.entry? host).map HostTable.entry).map (Prod.map id PathTable.relisted) := by
  unfold entry? rebuilt
  dsimp only
  rw [built.hosts]
  exact HostTable.selected_relisted _ _ host

theorem Built.mem_toList_of_entry? (built : Built s d table) {host : String}
    {b : Binding MountTable} (found : d.entry? host = some b) :
    (b.key.hostText, b.value) ∈ d.hosts.toList := by
  have selected := HostTable.selected_ofBinds ((entries s).map fun e => (e.1, table e.2)) host
  rw [← built.hosts] at selected
  unfold entry? at found
  rw [found] at selected
  rw [built.hosts]
  exact HostTable.mem_toList.2 selected.bound_eq

theorem Built.listing_rebuilt (built : Built s d table) : d.rebuilt.listing = d.listing := by
  have again : d.rebuilt.hosts.toList = d.hosts.toList.map (Prod.map id PathTable.relisted) := by
    unfold rebuilt
    dsimp only
    rw [built.hosts]
    exact HostTable.toList_relisted _ _
  unfold listing
  dsimp only
  rw [again, List.map_map]
  apply List.map_congr_left
  intro e mem
  obtain ⟨⟨binds, whole⟩, -⟩ := built.listed mem
  have mounts : e.2.relisted.toList = e.2.toList := by
    rw [whole]
    exact PathTable.toList_relisted binds
  dsimp only [Function.comp_apply, Prod.map, id_eq]
  rw [mounts]

theorem Built.attempts_rebuilt (built : Built s d table) (r : Request) :
    d.rebuilt.attempts r = d.attempts r := by
  have same := built.entry?_rebuilt ((requestHost? r).getD "")
  unfold attempts
  dsimp only
  cases found : d.entry? ((requestHost? r).getD "") with
  | none =>
    rw [found] at same
    rw [Option.map_eq_none_iff.1 same]
  | some b =>
    rw [found] at same
    obtain ⟨b', found', alike⟩ := Option.map_eq_some_iff.1 same
    obtain ⟨pattern, mounts⟩ := Prod.mk.inj alike
    obtain ⟨⟨binds, whole⟩, -⟩ := built.listed (built.mem_toList_of_entry? found)
    have calls (m) : callAt r ((requestHost? r).getD "") b' m =
        callAt r ((requestHost? r).getD "") b m := by
      unfold callAt
      rw [show b'.key.hostText = b.key.hostText from pattern]
    rw [found']
    dsimp only
    simp only [calls]
    rw [show b'.value = b.value.relisted from mounts, whole, PathTable.dispatch_relisted]

/-- Where the listing of a dispatcher is taken for settings, nothing is lost: they are accepted,
they make a dispatcher with the same listing, and every request is offered to the same applications
in the same order and the same way, with the same answer or none. -/
theorem answers_by_listing {s : Settings} {d : Dispatcher} (fits : s.fault? = none)
    (made : ofSettings s = .ok d) :
    (relisted s d.listing).fault? = none ∧
      ∃ d', ofSettings (relisted s d.listing) = .ok d' ∧ d'.listing = d.listing ∧
        (∀ host, (d'.entry? host).map (·.key.hostText) = (d.entry? host).map (·.key.hostText)) ∧
        ∀ r, d'.attempts r = d.attempts r ∧ d'.dispatch? r = d.dispatch? r := by
  obtain ⟨table, built⟩ := built_of_ofSettings fits made
  refine ⟨fault?_relisted fits built, _, ofSettings_relisted fits made, ?_, ?_, ?_⟩
  · exact built.listing_rebuilt
  · intro host
    have texts := congrArg (Option.map Prod.fst) (built.entry?_rebuilt host)
    simp only [Option.map_map] at texts
    exact texts
  · intro r
    have same := built.attempts_rebuilt r
    exact ⟨same, by rw [dispatch?_eq_findSome?, dispatch?_eq_findSome?, same]⟩

/-- Two names share an entry, one of them written with a capital and one as a star with a dot, and
mounts stand in no order. -/
theorem answers_by_listing_shared :
    let s : Settings :=
      { server := { listeners := [⟨"127.0.0.1:80", false, none⟩] }
        applications := [⟨"page", .text "hello" 200 "text/plain" true⟩,
          ⟨"moved", .redirect "https://new.example.com/" 302⟩]
        hosts := [⟨["B.example.com", "*."], [⟨"/b/*", "page"⟩, ⟨"/a/", "page"⟩, ⟨"/*", "moved"⟩]⟩,
          ⟨["*.example.com"], []⟩] }
    let r : Request := ⟨"GET", ⟨"b.example.com", "/b/c", none⟩, [], .v4 [127, 0, 0, 1] 50000, false⟩
    let shared : List ListedMount := [⟨"/*", "moved"⟩, ⟨"/a/", "page"⟩, ⟨"/b/*", "page"⟩]
    s.fault? = none ∧ ∃ d d', ofSettings s = .ok d ∧
      d.listing = [⟨"*", shared⟩, ⟨"*.example.com", []⟩, ⟨"b.example.com", shared⟩] ∧
      ofSettings (relisted s d.listing) = .ok d' ∧ d'.listing = d.listing ∧
      d'.dispatch? r = some ⟨302, [("location", "https://new.example.com/b/c")], ""⟩ := by
  intro s r shared
  have fits : s.fault? = none := by decide +kernel
  have built : ∃ d, ofSettings s = .ok d ∧
      d.listing = [⟨"*", shared⟩, ⟨"*.example.com", []⟩, ⟨"b.example.com", shared⟩] ∧
      d.dispatch? r = some ⟨302, [("location", "https://new.example.com/b/c")], ""⟩ :=
    ⟨_, rfl, by decide +kernel, by decide +kernel⟩
  obtain ⟨d, made, listed, answered⟩ := built
  obtain ⟨-, d', made', same, -, alike⟩ := answers_by_listing fits made
  exact ⟨fits, d, d', made, listed, made', same, (alike r).2.trans answered⟩

end Dispatcher

end Site

end Turnstile
