import Mathlib.Data.List.Nodup
import Turnstile.Proofs.Routing.Answers
import Turnstile.Proofs.Routing.Dispatch
import Turnstile.Proofs.Settings.Fitting
import Turnstile.Site.Dispatcher

namespace Turnstile

/-! ### One binding -/

namespace Routing

namespace Hostname

/-- A pattern as it is listed: in lower case. A star with nothing but a dot after it is the lone
star. -/
def spelled (pattern : String) : String :=
  if pattern = "*." then "*" else String.ofList (pattern.toList.map Char.toLower)

theorem dotted_of_readName {name : List Char} {segments : List String}
    (read : readName name = .ok segments) : dotted segments = name.map Char.toLower := by
  have lower : (name.map Char.toLower).map Char.toLower = name.map Char.toLower := by
    rw [List.map_map]
    exact List.map_congr_left fun c _ => toLower_toLower c
  rw [← readName_map_toLower] at read
  exact ((readName_eq_ok_iff_dotted lower).1 read).2.2

theorem hostText_of_parse {pattern : String} {allowWildcard : Bool} {key : Key}
    (h : parse pattern allowWildcard = .ok key) : key.hostText = spelled pattern := by
  obtain ⟨segments, wildcard⟩ := key
  unfold spelled
  rcases readPattern_eq_ok_iff.1 (parse_eq_ok_iff.1 h) with
    ⟨named, exact⟩ | ⟨-, ⟨lone, all⟩ | ⟨name, written, named, wild⟩⟩
  · obtain rfl : wildcard = false := exact
    have other : pattern ≠ "*." := by
      rintro rfl
      exact star_not_mem_of_readName named (by decide)
    rw [if_neg other, ← String.toList_inj, toList_hostText_exact, dotted_of_readName named,
      String.toList_ofList]
  · rw [all]
    have spelling : pattern = "*" ∨ pattern = "*." :=
      lone.imp (fun h => String.toList_inj.1 h) fun h => String.toList_inj.1 h
    rcases spelling with rfl | rfl <;> decide
  · obtain rfl : wildcard = true := wild
    have longer : pattern ≠ "*." := by
      rintro rfl
      exact ne_nil_of_readName named (List.cons.inj (List.cons.inj written).2).2.symm
    have labels := (labels_of_readName named).1
    rw [if_neg longer, ← String.toList_inj, toList_hostText_wildcard labels,
      dotted_of_readName named, String.toList_ofList, written]
    rfl

end Hostname

/-- Bindings none of which is refused: the patterns can be read, and no two are spelled alike. -/
structure Clear {α : Type} (read : String → Except RouteError Key) (spelling : String → String)
    (binds : List (String × α)) : Prop where
  readable : ∀ b ∈ binds, ∃ key, read b.1 = .ok key
  distinct : (binds.map fun b => spelling b.1).Nodup

namespace Clear

variable {α : Type} {read : String → Except RouteError Key} {spelling : String → String}
  {binds : List (String × α)}

theorem nil : Clear read spelling ([] : List (String × α)) := ⟨nofun, List.nodup_nil⟩

theorem concat (clear : Clear read spelling binds) {pattern : String} {key : Key} {value : α}
    (reads : read pattern = .ok key) (free : ∀ b ∈ binds, spelling b.1 ≠ spelling pattern) :
    Clear read spelling (binds ++ [(pattern, value)]) := by
  constructor
  · intro b mem
    rcases List.mem_append.1 mem with mem | mem
    · exact clear.readable b mem
    · cases List.mem_singleton.1 mem
      exact ⟨key, reads⟩
  · rw [List.map_append]
    apply List.nodup_append.2 ⟨clear.distinct, by simp, ?_⟩
    intro text mem text' mem'
    obtain ⟨b, present, rfl⟩ := List.mem_map.1 mem
    cases List.mem_singleton.1 mem'
    exact free b present

/-- It depends on the patterns alone. -/
theorem of_map_eq {β : Type} {binds' : List (String × β)} (clear : Clear read spelling binds)
    (same : binds'.map (·.1) = binds.map (·.1)) : Clear read spelling binds' := by
  constructor
  · intro b mem
    have pattern : b.1 ∈ binds.map (·.1) := same ▸ List.mem_map_of_mem mem
    obtain ⟨b', mem', same⟩ := List.mem_map.1 pattern
    exact same ▸ clear.readable b' mem'
  · have spellings : binds'.map (fun b => spelling b.1) = binds.map fun b => spelling b.1 := by
      have := congrArg (List.map spelling) same
      rwa [List.map_map, List.map_map] at this
    exact spellings ▸ clear.distinct

end Clear

namespace HostTable

open Hostname (parse spelled)

variable {α : Type} {binds : List (String × α)}

theorem named_eq (clear : Clear (parse · true) spelled binds) :
    named binds = binds.map fun b => (spelled b.1, b.2) := by
  unfold named Trie.readPairs
  rw [List.map_filterMap, ← List.filterMap_eq_map]
  apply List.filterMap_congr
  intro b mem
  obtain ⟨key, read⟩ := clear.readable b mem
  simp [read, Except.toOption, Hostname.hostText_of_parse read]

/-- A text is bound to the value that comes with its one spelling. -/
theorem bound_eq_some_iff (clear : Clear (parse · true) spelled binds) {text : String} {value : α} :
    bound binds text = some value ↔ ∃ name, (name, value) ∈ binds ∧ spelled name = text := by
  have distinct : ((binds.map fun b => (spelled b.1, b.2)).map (·.1)).Nodup := by
    rw [List.map_map]
    exact clear.distinct
  rw [bound, named_eq clear, lookup_eq_some_iff_mem_of_nodup distinct]
  simp

theorem bind_eq_ok (clear : Clear (parse · true) spelled binds) {pattern : String} {value : α}
    {t : HostTable α} (h : (ofBinds binds).bind pattern value = .ok t) :
    Clear (parse · true) spelled (binds ++ [(pattern, value)]) ∧
      t = ofBinds (binds ++ [(pattern, value)]) := by
  cases read : parse pattern true with
  | error e =>
    rw [bind, read] at h
    cases h
  | ok key =>
    rw [bind_ofBinds binds read, Hostname.hostText_of_parse read] at h
    split at h
    · cases h
    · next free =>
      cases h
      refine ⟨clear.concat read fun b present same => free ?_, rfl⟩
      rw [(bound_eq_some_iff clear).2 ⟨b.1, present, same⟩]
      rfl

end HostTable

namespace PathTable

open Pathname (parse)

variable {α : Type} {binds : List (String × α)}

theorem lookup_readable_iff (clear : Clear (parse · true) id binds) {pattern : String} {value : α} :
    (readable binds).lookup pattern = some value ↔ (pattern, value) ∈ binds := by
  have all : readable binds = binds := by
    apply List.filter_eq_self.2
    intro b mem
    obtain ⟨key, read⟩ := clear.readable b mem
    rw [read]
    rfl
  rw [all, lookup_eq_some_iff_mem_of_nodup clear.distinct]

theorem bind_eq_ok (clear : Clear (parse · true) id binds) {pattern : String} {value : α}
    {t : PathTable α} (h : (ofBinds binds).bind pattern value = .ok t) :
    Clear (parse · true) id (binds ++ [(pattern, value)]) ∧
      t = ofBinds (binds ++ [(pattern, value)]) := by
  cases read : parse pattern true with
  | error e =>
    rw [bind, read] at h
    cases h
  | ok key =>
    rw [bind_ofBinds binds read] at h
    split at h
    · cases h
    · next free =>
      cases h
      refine ⟨clear.concat read fun b present same => free ?_, rfl⟩
      obtain rfl : b.1 = pattern := same
      rw [(lookup_readable_iff clear).2 present]
      rfl

end PathTable

end Routing

/-! ### Many bindings -/

namespace Site

open Routing

/-- An application of this name is among the settings, and this is what is made of it. -/
def Provides (s : Settings) (name : String) (a : Application) : Prop :=
  ∃ x ∈ s.applications, x.name = name ∧ Application.ofSettings x = .ok a

namespace Dispatcher

theorem buildApplications_spec {built applications : Applications}
    {settings : List Settings.Application}
    (h : buildApplications built settings = .ok applications) :
    applications.map (·.1) = (settings.map (·.name)).reverse ++ built.map (·.1) ∧
      ∀ name a, (name, a) ∈ applications ↔ (name, a) ∈ built ∨
        ∃ x ∈ settings, x.name = name ∧ Application.ofSettings x = .ok a := by
  induction settings generalizing built with
  | nil =>
    cases h
    simp
  | cons x rest ih =>
    unfold buildApplications at h
    split at h
    · cases h
    · next a made =>
      obtain ⟨names, members⟩ := ih h
      constructor
      · simp [names]
      · intro name b
        rw [members]
        simp [made, or_assoc, or_left_comm, eq_comm]

theorem names_nodup {seen : List String} {applications : List Settings.Application}
    (h : Settings.repeatFault? seen applications = none) :
    (applications.map (·.name)).Nodup ∧ ∀ x ∈ applications, x.name ∉ seen := by
  induction applications generalizing seen with
  | nil => simp
  | cons x rest ih =>
    unfold Settings.repeatFault? at h
    split at h
    · cases h
    · next new =>
      obtain ⟨distinct, others⟩ := ih h
      refine ⟨List.nodup_cons.2 ⟨?_, distinct⟩, List.forall_mem_cons.2 ⟨by simpa using new, ?_⟩⟩
      · intro again
        obtain ⟨y, mem, same⟩ := List.mem_map.1 again
        exact others y mem (same ▸ List.mem_cons_self)
      · intro y mem seen
        exact others y mem (List.mem_cons_of_mem _ seen)

/-- In settings that fit together, an application is found by its name. -/
theorem lookup_applications_iff {s : Settings} {applications : Applications}
    (fits : s.fault? = none) (h : buildApplications [] s.applications = .ok applications)
    {name : String} {a : Application} :
    applications.lookup name = some a ↔ Provides s name a := by
  obtain ⟨names, members⟩ := buildApplications_spec h
  obtain ⟨-, -, unrepeated, -⟩ := Settings.fault?_eq_none_iff.1 fits
  have distinct : (s.applications.map (·.name)).Nodup := (names_nodup unrepeated).1
  have distinct' : (applications.map (·.1)).Nodup := by
    rw [names, List.map_nil, List.append_nil]
    exact List.nodup_reverse.2 distinct
  rw [lookup_eq_some_iff_mem_of_nodup distinct', members]
  simp [Provides]

section

variable {applications : Applications}

theorem bindMounts_spec {binds : List (String × Application)} {mounts : List Settings.Mount}
    {table : MountTable} (clear : Clear (Pathname.parse · true) id binds)
    (h : bindMounts applications (PathTable.ofBinds binds) mounts = .ok table) :
    ∃ more, List.Forall₂ (fun (m : Settings.Mount) (b : String × Application) =>
        m.path = b.1 ∧ applications.lookup m.application = some b.2) mounts more ∧
      Clear (Pathname.parse · true) id (binds ++ more) ∧
      table = PathTable.ofBinds (binds ++ more) := by
  induction mounts generalizing binds with
  | nil =>
    cases h
    exact ⟨[], .nil, by rwa [List.append_nil], by rw [List.append_nil]⟩
  | cons m rest ih =>
    unfold bindMounts at h
    split at h
    · cases h
    · next a found =>
      split at h
      · cases h
      · next table' bound =>
        obtain ⟨clear', rfl⟩ := PathTable.bind_eq_ok clear bound
        obtain ⟨more, each, clear'', whole⟩ := ih clear' h
        rw [List.append_assoc] at clear'' whole
        exact ⟨(m.path, a) :: more, .cons ⟨rfl, found⟩ each, clear'', whole⟩

theorem bindNames_spec {binds : List (String × MountTable)} {names : List String}
    {mounts : MountTable} {table : HostTable MountTable}
    (clear : Clear (Hostname.parse · true) Hostname.spelled binds)
    (h : bindNames mounts (HostTable.ofBinds binds) names = .ok table) :
    Clear (Hostname.parse · true) Hostname.spelled (binds ++ names.map (·, mounts)) ∧
      table = HostTable.ofBinds (binds ++ names.map (·, mounts)) := by
  induction names generalizing binds with
  | nil =>
    cases h
    exact ⟨by rwa [List.map_nil, List.append_nil], by rw [List.map_nil, List.append_nil]⟩
  | cons name rest ih =>
    unfold bindNames at h
    split at h
    · cases h
    · next table' bound =>
      obtain ⟨clear', rfl⟩ := HostTable.bind_eq_ok clear bound
      obtain ⟨clear'', whole⟩ := ih clear' h
      rw [List.append_assoc] at clear'' whole
      exact ⟨clear'', whole⟩

def mountTable (applications : Applications) (h : Settings.Host) : MountTable :=
  (bindMounts applications .empty h.mounts).toOption.getD .empty

theorem bindHosts_spec {binds : List (String × MountTable)} {hosts : List Settings.Host}
    {table : HostTable MountTable}
    (clear : Clear (Hostname.parse · true) Hostname.spelled binds)
    (h : bindHosts applications (HostTable.ofBinds binds) hosts = .ok table) :
    let more := hosts.flatMap fun h => h.names.map (·, mountTable applications h)
    (∀ h ∈ hosts, bindMounts applications .empty h.mounts = .ok (mountTable applications h)) ∧
      Clear (Hostname.parse · true) Hostname.spelled (binds ++ more) ∧
      table = HostTable.ofBinds (binds ++ more) := by
  induction hosts generalizing binds with
  | nil =>
    cases h
    exact ⟨nofun, by rwa [List.flatMap_nil, List.append_nil],
      by rw [List.flatMap_nil, List.append_nil]⟩
  | cons host rest ih =>
    unfold bindHosts at h
    split at h
    · cases h
    · next mounts made =>
      have own : mountTable applications host = mounts := by
        rw [mountTable, made]
        rfl
      split at h
      · cases h
      · next table' bound =>
        obtain ⟨clear', rfl⟩ := bindNames_spec clear bound
        obtain ⟨others, clear'', whole⟩ := ih clear' h
        rw [List.append_assoc] at clear'' whole
        rw [List.flatMap_cons, own]
        exact ⟨List.forall_mem_cons.2 ⟨own ▸ made, others⟩, clear'', whole⟩

end

/-! ### All of them -/

/-- The names of all entries, each with its entry. -/
def entries (s : Settings) : List (String × Settings.Host) :=
  s.hosts.flatMap fun h => h.names.map (·, h)

/-- What is in a dispatcher that was built from settings, where `table` gives the mounts of the
entries. -/
structure Built (s : Settings) (d : Dispatcher) (table : Settings.Host → MountTable) : Prop where
  hosts : d.hosts = HostTable.ofBinds ((entries s).map fun e => (e.1, table e.2))
  clear : Clear (Hostname.parse · true) Hostname.spelled (entries s)
  mounts : ∀ h ∈ s.hosts, ∃ binds, table h = PathTable.ofBinds binds ∧
    Clear (Pathname.parse · true) id binds ∧
    ∀ path a, (path, a) ∈ binds ↔ ∃ m ∈ h.mounts, m.path = path ∧ Provides s m.application a
  provided : ∀ h ∈ s.hosts, ∀ m ∈ h.mounts, ∃ a, Provides s m.application a
  provides_once : ∀ name a a', Provides s name a → Provides s name a' → a = a'

theorem mem_of_forall₂ {applications : Applications} {mounts : List Settings.Mount}
    {binds : List (String × Application)}
    (each : List.Forall₂ (fun (m : Settings.Mount) (b : String × Application) =>
      m.path = b.1 ∧ applications.lookup m.application = some b.2) mounts binds)
    (path : String) (a : Application) :
    (path, a) ∈ binds ↔
      ∃ m ∈ mounts, m.path = path ∧ applications.lookup m.application = some a := by
  induction each with
  | nil => simp
  | @cons m b _ _ first _ ih =>
    obtain ⟨path', a'⟩ := b
    obtain ⟨rfl, found⟩ := first
    simp [ih, found, eq_comm]

theorem exists_lookup_of_forall₂ {applications : Applications} {mounts : List Settings.Mount}
    {binds : List (String × Application)}
    (each : List.Forall₂ (fun (m : Settings.Mount) (b : String × Application) =>
      m.path = b.1 ∧ applications.lookup m.application = some b.2) mounts binds) :
    ∀ m ∈ mounts, ∃ a, applications.lookup m.application = some a := by
  induction each with
  | nil => nofun
  | cons first _ ih => exact List.forall_mem_cons.2 ⟨⟨_, first.2⟩, ih⟩

theorem built_of_ofSettings {s : Settings} {d : Dispatcher} (fits : s.fault? = none)
    (made : ofSettings s = .ok d) : ∃ table, Built s d table := by
  unfold ofSettings at made
  split at made
  · cases made
  · next applications built =>
    split at made
    · cases made
    · next hosts bound =>
      cases made
      have nothing : Clear (Hostname.parse · true) Hostname.spelled
        ([] : List (String × MountTable)) := .nil
      obtain ⟨mounts, clear, whole⟩ := bindHosts_spec nothing bound
      rw [List.nil_append] at clear whole
      have paired : (entries s).map (fun e => (e.1, mountTable applications e.2)) =
          s.hosts.flatMap fun h => h.names.map (·, mountTable applications h) := by
        rw [entries, List.map_flatMap]
        apply List.flatMap_congr
        intro h _
        rw [List.map_map]
        rfl
      refine ⟨mountTable applications, by rw [paired]; exact whole, ?_, ?_, ?_, ?_⟩
      · rw [← paired] at clear
        apply clear.of_map_eq
        rw [List.map_map]
        rfl
      · intro h mem
        obtain ⟨binds, each, clear, whole⟩ := bindMounts_spec .nil (mounts h mem)
        refine ⟨binds, whole, clear, fun path a => ?_⟩
        rw [mem_of_forall₂ each]
        simp only [lookup_applications_iff fits built]
      · intro h mem m mounted
        obtain ⟨binds, each, -, -⟩ := bindMounts_spec .nil (mounts h mem)
        obtain ⟨a, found⟩ := exists_lookup_of_forall₂ each m mounted
        exact ⟨a, (lookup_applications_iff fits built).1 found⟩
      · intro name a a' provides provides'
        rw [← lookup_applications_iff fits built] at provides provides'
        exact Option.some.inj (provides.symm.trans provides')

end Dispatcher

end Site

end Turnstile
