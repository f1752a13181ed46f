import Turnstile.Proofs.Http.Heads
import Turnstile.Proofs.Site.Building

/-!
# When a dispatcher can be built

Settings that fit together can still ask for what cannot be built. An application must be able to
answer (`Buildable`), and patterns that are bound together must be readable and must not share a key
(`Apart`): the mounts of one entry, and the names of all entries. Nothing else is asked for
(`builds_iff`). What stops the building is told by the error: the first application that cannot
answer and what is wrong with it (`Flawed`), or else a pattern that those before it leave no room
for (`Stopped`).
-/

namespace Turnstile

namespace Routing

/-! ### Patterns that are bound together -/

/-- Patterns that can all be read, no two of them as the same key. -/
structure Apart (read : String → Except RouteError Key) (patterns : List String) : Prop where
  readable : ∀ p ∈ patterns, ∃ key, read p = .ok key
  distinct : patterns.Pairwise fun p q => read p ≠ read q

inductive Refused (read : String → Except RouteError Key) (others : List String)
    (pattern : String) : RouteError → Prop
  | unreadable {e : RouteError} (unread : read pattern = .error e) : Refused read others pattern e
  | taken {other : String} {key : Key} (mem : other ∈ others) (own : read pattern = .ok key)
      (same : read other = .ok key) : Refused read others pattern (.duplicateBinding pattern)

theorem Refused.not_apart {read : String → Except RouteError Key} {before after : List String}
    {pattern : String} {e : RouteError} (refused : Refused read before pattern e) :
    ¬ Apart read (before ++ pattern :: after) := by
  intro apart
  cases refused with
  | unreadable unread =>
    obtain ⟨key, reads⟩ := apart.readable pattern (by simp)
    rw [unread] at reads
    cases reads
  | taken mem own same =>
    obtain ⟨-, -, across⟩ := List.pairwise_append.1 apart.distinct
    exact across _ mem pattern List.mem_cons_self (same.trans own.symm)

/-- Bindings none of which is refused have patterns that are apart, if patterns with one key are
spelled alike. -/
theorem Clear.apart_patterns {α : Type} {read : String → Except RouteError Key}
    {spelling : String → String} {binds : List (String × α)} (clear : Clear read spelling binds)
    (alike : ∀ {p q key}, read p = .ok key → read q = .ok key → spelling p = spelling q) :
    Apart read (binds.map (·.1)) := by
  constructor
  · intro p mem
    obtain ⟨b, present, rfl⟩ := List.mem_map.1 mem
    exact clear.readable b present
  · apply List.pairwise_map.2
    apply (List.pairwise_map.1 clear.distinct).imp_of_mem
    intro b b' mem _ different same
    obtain ⟨key, reads⟩ := clear.readable b mem
    exact different (alike reads (same.symm.trans reads))

/-- Names that differ in case only are spelled alike. -/
theorem Hostname.spelled_congr {name name' : String}
    (same : name.toList.map Char.toLower = name'.toList.map Char.toLower) :
    spelled name = spelled name' := by
  have dotted (text : String) : text = "*." ↔ text.toList.map Char.toLower = ['*', '.'] := by
    constructor
    · rintro rfl
      rfl
    · intro lower
      have star (c : Char) : c.toLower = '*' ↔ c = '*' := toLower_eq_iff (by decide)
      have dot (c : Char) : c.toLower = '.' ↔ c = '.' := toLower_eq_iff (by decide)
      rw [← String.toList_inj]
      simpa [List.map_eq_cons_iff, star, dot] using lower
  unfold spelled
  rw [same]
  simp only [dotted, same]

namespace HostTable

open Hostname (parse spelled)

variable {α : Type} {binds : List (String × α)}

theorem alike_of_parse {p q : String} {key : Key} (reads : parse p true = .ok key)
    (reads' : parse q true = .ok key) : spelled p = spelled q :=
  (Hostname.hostText_of_parse reads).symm.trans (Hostname.hostText_of_parse reads')

theorem bind_cases (clear : Clear (parse · true) spelled binds) (pattern : String) (value : α) :
    (∃ t, (ofBinds binds).bind pattern value = .ok t) ∨
      ∃ e, (ofBinds binds).bind pattern value = .error e ∧
        Refused (parse · true) (binds.map (·.1)) pattern e := by
  cases reads : parse pattern true with
  | error e => exact .inr ⟨e, by rw [bind, reads], .unreadable reads⟩
  | ok key =>
    rw [bind_ofBinds binds reads]
    split
    · next occupied =>
      obtain ⟨other, found⟩ := Option.isSome_iff_exists.1 occupied
      obtain ⟨name, mem, spelling⟩ := (bound_eq_some_iff clear).1 found
      obtain ⟨key', reads'⟩ := clear.readable (name, other) mem
      have text : key'.hostText = key.hostText :=
        (Hostname.hostText_of_parse reads').trans spelling
      obtain rfl := (Hostname.hostText_inj (Hostname.labels_of_parse reads')
        (Hostname.labels_of_parse reads)).1 text
      exact .inr ⟨_, rfl, .taken (List.mem_map_of_mem mem) reads reads'⟩
    · exact .inl ⟨_, rfl⟩

end HostTable

namespace PathTable

open Pathname (parse)

variable {α : Type} {binds : List (String × α)}

theorem alike_of_parse {p q : String} {key : Key} (reads : parse p true = .ok key)
    (reads' : parse q true = .ok key) : p = q :=
  (Pathname.parse_spec reads).1.symm.trans (Pathname.parse_spec reads').1

theorem bind_cases (clear : Clear (parse · true) id binds) (pattern : String) (value : α) :
    (∃ t, (ofBinds binds).bind pattern value = .ok t) ∨
      ∃ e, (ofBinds binds).bind pattern value = .error e ∧
        Refused (parse · true) (binds.map (·.1)) pattern e := by
  cases reads : parse pattern true with
  | error e => exact .inr ⟨e, by rw [bind, reads], .unreadable reads⟩
  | ok key =>
    rw [bind_ofBinds binds reads]
    split
    · next occupied =>
      obtain ⟨other, found⟩ := Option.isSome_iff_exists.1 occupied
      have mem := (lookup_readable_iff clear).1 found
      exact .inr ⟨_, rfl, .taken (List.mem_map_of_mem mem) reads reads⟩
    · exact .inl ⟨_, rfl⟩

end PathTable

end Routing

namespace Site

open Routing Http

/-! ### Applications -/

/-- An application that can answer: a status code has three digits, that of a redirect is among the
three hundreds, and the content type of a text can be sent. -/
def Buildable : Settings.ApplicationKind → Prop
  | .text _ status contentType _ => (100 ≤ status ∧ status ≤ 999) ∧ Sendable contentType
  | .redirect _ status => 300 ≤ status ∧ status ≤ 399
  | .echo => True

inductive Flawed : Settings.ApplicationKind → ApplicationFault → Prop
  | textStatus {body : String} {status : Nat} {contentType : String} {exactOnly : Bool}
      (bad : ¬ (100 ≤ status ∧ status ≤ 999)) :
      Flawed (.text body status contentType exactOnly) (.invalidStatus status)
  | contentType {body : String} {status : Nat} {contentType : String} {exactOnly : Bool}
      (good : 100 ≤ status ∧ status ≤ 999) (bad : ¬ Sendable contentType) :
      Flawed (.text body status contentType exactOnly) (.invalidContentType contentType)
  | redirectStatus {target : String} {status : Nat} (bad : ¬ (100 ≤ status ∧ status ≤ 999)) :
      Flawed (.redirect target status) (.invalidStatus status)
  | notRedirect {target : String} {status : Nat} (good : 100 ≤ status ∧ status ≤ 999)
      (bad : ¬ (300 ≤ status ∧ status ≤ 399)) :
      Flawed (.redirect target status) (.notRedirect status)

theorem Flawed.not_buildable {kind : Settings.ApplicationKind} {fault : ApplicationFault}
    (flawed : Flawed kind fault) : ¬ Buildable kind := by
  intro buildable
  cases flawed with
  | textStatus bad => exact bad buildable.1
  | contentType _ bad => exact bad buildable.2
  | redirectStatus bad =>
    have : 300 ≤ _ ∧ _ ≤ 399 := buildable
    omega
  | notRedirect _ bad => exact bad buildable

theorem isValid_status_iff {status : Nat} :
    Status.isValid status = true ↔ 100 ≤ status ∧ status ≤ 999 := by
  simp only [Status.isValid, Bool.and_eq_true, decide_eq_true_eq]
  omega

theorem isRedirect_status_iff {status : Nat} :
    Status.isRedirect status = true ↔ 300 ≤ status ∧ status ≤ 399 := by
  simp only [Status.isRedirect, Bool.and_eq_true, decide_eq_true_eq]
  omega

namespace Application

theorem behaviour?_cases (kind : Settings.ApplicationKind) :
    (Buildable kind ∧ ∃ behaviour, behaviour? kind = .ok behaviour) ∨
      ∃ fault, Flawed kind fault ∧ behaviour? kind = .error fault := by
  cases kind with
  | text body status contentType exactOnly =>
    by_cases valid : 100 ≤ status ∧ status ≤ 999
    · by_cases sendable : Sendable contentType
      · left
        refine ⟨⟨valid, sendable⟩, .text body status contentType exactOnly, ?_⟩
        simp [behaviour?, isValid_status_iff.2 valid, isHeaderValue_iff.2 sendable]
      · right
        refine ⟨_, .contentType valid sendable, ?_⟩
        rw [← isHeaderValue_iff, Bool.not_eq_true] at sendable
        simp [behaviour?, isValid_status_iff.2 valid, sendable]
    · right
      refine ⟨_, .textStatus valid, ?_⟩
      rw [← isValid_status_iff, Bool.not_eq_true] at valid
      simp [behaviour?, valid]
  | redirect target status =>
    by_cases valid : 100 ≤ status ∧ status ≤ 999
    · by_cases redirects : 300 ≤ status ∧ status ≤ 399
      · left
        refine ⟨redirects, .redirect (trimSlashes target) status, ?_⟩
        simp [behaviour?, isValid_status_iff.2 valid, isRedirect_status_iff.2 redirects]
      · right
        refine ⟨_, .notRedirect valid redirects, ?_⟩
        rw [← isRedirect_status_iff, Bool.not_eq_true] at redirects
        simp [behaviour?, isValid_status_iff.2 valid, redirects]
    · right
      refine ⟨_, .redirectStatus valid, ?_⟩
      rw [← isValid_status_iff, Bool.not_eq_true] at valid
      simp [behaviour?, valid]
  | echo => exact .inl ⟨trivial, _, rfl⟩

theorem ofSettings_cases (x : Settings.Application) :
    (Buildable x.kind ∧ ∃ a, ofSettings x = .ok a) ∨
      ∃ fault, Flawed x.kind fault ∧ ofSettings x = .error (.application x.name fault) := by
  unfold ofSettings
  rcases behaviour?_cases x.kind with ⟨buildable, behaviour, made⟩ | ⟨fault, flawed, failed⟩
  · rw [made]
    exact .inl ⟨buildable, _, rfl⟩
  · rw [failed]
    exact .inr ⟨fault, flawed, rfl⟩

end Application

namespace Dispatcher

/-- All applications are built, or the first that cannot answer is reported. -/
theorem buildApplications_cases (built : Applications) (settings : List Settings.Application) :
    ((∀ x ∈ settings, Buildable x.kind) ∧
        ∃ applications, buildApplications built settings = .ok applications) ∨
      ∃ before x after fault, settings = before ++ x :: after ∧ (∀ y ∈ before, Buildable y.kind) ∧
        Flawed x.kind fault ∧
        buildApplications built settings = .error (.application x.name fault) := by
  induction settings generalizing built with
  | nil => exact .inl ⟨nofun, built, rfl⟩
  | cons x rest ih =>
    rw [buildApplications]
    rcases Application.ofSettings_cases x with ⟨buildable, a, made⟩ | ⟨fault, flawed, failed⟩
    · rw [made]
      rcases ih ((x.name, a) :: built) with
        ⟨others, ok⟩ | ⟨before, y, after, fault, rfl, all, flawed, failed⟩
      · exact .inl ⟨List.forall_mem_cons.2 ⟨buildable, others⟩, ok⟩
      · exact .inr ⟨x :: before, y, after, fault, rfl, List.forall_mem_cons.2 ⟨buildable, all⟩,
          flawed, failed⟩
    · rw [failed]
      exact .inr ⟨[], x, rest, fault, rfl, nofun, flawed, rfl⟩

/-- In settings that fit together every mount has an application. -/
theorem known_of_fits {s : Settings} {applications : Applications} (fits : s.fault? = none)
    (built : buildApplications [] s.applications = .ok applications) :
    ∀ h ∈ s.hosts, ∀ m ∈ h.mounts, ∃ a, applications.lookup m.application = some a := by
  intro h mem m mounted
  obtain ⟨-, -, -, faultless, -⟩ := Settings.fault?_eq_none_iff.1 fits
  have own := List.findSome?_eq_none_iff.1 faultless h mem
  unfold Settings.hostFault? at own
  split at own
  · cases own
  · rw [Option.map_eq_none_iff, List.find?_eq_none] at own
    have named : m.application ∈ s.applications.map (·.name) := by simpa using own m mounted
    have listed : m.application ∈ applications.map (·.1) := by
      rw [(buildApplications_spec built).1]
      simpa using named
    obtain ⟨pair, present, same⟩ := List.mem_map.1 listed
    exact Option.isSome_iff_exists.1 (List.lookup_isSome_iff.2 ⟨pair, present, by simp [same]⟩)

/-! ### Mounts and names -/

section

variable {applications : Applications}

theorem bindMounts_cases {binds : List (String × Application)} {mounts : List Settings.Mount}
    (clear : Clear (Pathname.parse · true) id binds)
    (known : ∀ m ∈ mounts, ∃ a, applications.lookup m.application = some a) :
    (∃ table, bindMounts applications (PathTable.ofBinds binds) mounts = .ok table) ∨
      ∃ before m after e, mounts = before ++ m :: after ∧
        Refused (Pathname.parse · true) (binds.map (·.1) ++ before.map (·.path)) m.path e ∧
        bindMounts applications (PathTable.ofBinds binds) mounts = .error (.route e) := by
  induction mounts generalizing binds with
  | nil => exact .inl ⟨_, rfl⟩
  | cons m rest ih =>
    obtain ⟨⟨a, found⟩, others⟩ := List.forall_mem_cons.1 known
    rw [bindMounts, found]
    dsimp only
    rcases PathTable.bind_cases clear m.path a with ⟨table, ok⟩ | ⟨e, failed, refused⟩
    · rw [ok]
      obtain ⟨clear', rfl⟩ := PathTable.bind_eq_ok clear ok
      rcases ih clear' others with bound | ⟨before, m', after, e, rfl, refused, failed⟩
      · exact .inl bound
      · rw [List.map_append, List.append_assoc] at refused
        exact .inr ⟨m :: before, m', after, e, rfl, refused, failed⟩
    · rw [failed]
      exact .inr ⟨[], m, rest, e, rfl, by simpa using refused, rfl⟩

theorem bindNames_cases {binds : List (String × MountTable)} (mounts : MountTable)
    (names : List String) (clear : Clear (Hostname.parse · true) Hostname.spelled binds) :
    (∃ table, bindNames mounts (HostTable.ofBinds binds) names = .ok table) ∨
      ∃ before name after e, names = before ++ name :: after ∧
        Refused (Hostname.parse · true) (binds.map (·.1) ++ before) name e ∧
        bindNames mounts (HostTable.ofBinds binds) names = .error (.route e) := by
  induction names generalizing binds with
  | nil => exact .inl ⟨_, rfl⟩
  | cons name rest ih =>
    rw [bindNames]
    rcases HostTable.bind_cases clear name mounts with ⟨table, ok⟩ | ⟨e, failed, refused⟩
    · rw [ok]
      obtain ⟨clear', rfl⟩ := HostTable.bind_eq_ok clear ok
      rcases ih clear' with bound | ⟨before, name', after, e, rfl, refused, failed⟩
      · exact .inl bound
      · rw [List.map_append, List.append_assoc] at refused
        exact .inr ⟨name :: before, name', after, e, rfl, refused, failed⟩
    · rw [failed]
      exact .inr ⟨[], name, rest, e, rfl, by simpa using refused, rfl⟩

/-- A pattern at which the binding of entries stops, and why, where some names are bound already: a
mount that the mounts before it in its entry leave no room for, or a name that the names before it
leave no room for. -/
inductive Stopped (bound : List String) (hosts : List Settings.Host) : RouteError → Prop
  | mount {h : Settings.Host} {before after : List Settings.Mount} {m : Settings.Mount}
      {e : RouteError} (mem : h ∈ hosts) (split : h.mounts = before ++ m :: after)
      (refused : Refused (Pathname.parse · true) (before.map (·.path)) m.path e) :
      Stopped bound hosts e
  | name {before after : List String} {name : String} {e : RouteError}
      (split : hosts.flatMap (·.names) = before ++ name :: after)
      (refused : Refused (Hostname.parse · true) (bound ++ before) name e) : Stopped bound hosts e

theorem Stopped.cons {bound : List String} {h : Settings.Host} {hosts : List Settings.Host}
    {e : RouteError} (stopped : Stopped (bound ++ h.names) hosts e) :
    Stopped bound (h :: hosts) e := by
  cases stopped with
  | mount mem split refused => exact .mount (List.mem_cons_of_mem _ mem) split refused
  | @name before after name _ split refused =>
    rw [List.append_assoc] at refused
    have whole : (h :: hosts).flatMap (·.names) = (h.names ++ before) ++ name :: after := by
      rw [List.flatMap_cons, split, List.append_assoc]
    exact .name whole refused

theorem bindHosts_cases {binds : List (String × MountTable)} {hosts : List Settings.Host}
    (clear : Clear (Hostname.parse · true) Hostname.spelled binds)
    (known : ∀ h ∈ hosts, ∀ m ∈ h.mounts, ∃ a, applications.lookup m.application = some a) :
    (∃ table, bindHosts applications (HostTable.ofBinds binds) hosts = .ok table) ∨
      ∃ e, Stopped (binds.map (·.1)) hosts e ∧
        bindHosts applications (HostTable.ofBinds binds) hosts = .error (.route e) := by
  induction hosts generalizing binds with
  | nil => exact .inl ⟨_, rfl⟩
  | cons h rest ih =>
    obtain ⟨own, others⟩ := List.forall_mem_cons.1 known
    rw [bindHosts]
    have nothing : Clear (Pathname.parse · true) id ([] : List (String × Application)) := .nil
    rcases bindMounts_cases nothing own with
      ⟨mounts, made⟩ | ⟨before, m, after, e, split, refused, failed⟩
    · rw [show PathTable.empty = PathTable.ofBinds [] from rfl, made]
      dsimp only
      rcases bindNames_cases mounts h.names clear with
        ⟨table, ok⟩ | ⟨before, name, after, e, split, refused, failed⟩
      · rw [ok]
        obtain ⟨clear', rfl⟩ := bindNames_spec clear ok
        rcases ih clear' others with bound | ⟨e, stopped, failed⟩
        · exact .inl bound
        · have names : (binds ++ h.names.map (·, mounts)).map (·.1) =
              binds.map (·.1) ++ h.names := by simp [Function.comp_def]
          rw [names] at stopped
          exact .inr ⟨e, stopped.cons, failed⟩
      · rw [failed]
        have whole : (h :: rest).flatMap (·.names) =
            before ++ name :: (after ++ rest.flatMap (·.names)) := by
          rw [List.flatMap_cons, split, List.append_assoc, List.cons_append]
        exact .inr ⟨e, .name whole refused, rfl⟩
    · rw [show PathTable.empty = PathTable.ofBinds [] from rfl, failed]
      exact .inr ⟨e, .mount List.mem_cons_self split refused, rfl⟩

theorem paths_of_forall₂ {mounts : List Settings.Mount} {binds : List (String × Application)}
    (each : List.Forall₂ (fun (m : Settings.Mount) (b : String × Application) =>
      m.path = b.1 ∧ applications.lookup m.application = some b.2) mounts binds) :
    mounts.map (·.path) = binds.map (·.1) := by
  induction each with
  | nil => rfl
  | cons first _ ih => rw [List.map_cons, List.map_cons, first.1, ih]

/-- Entries whose patterns can be bound: the mounts of each are apart, and so are the names of
all. -/
structure EntriesApart (hosts : List Settings.Host) : Prop where
  mounts : ∀ h ∈ hosts, Apart (Pathname.parse · true) (h.mounts.map (·.path))
  names : Apart (Hostname.parse · true) (hosts.flatMap (·.names))

theorem apart_of_bindHosts {hosts : List Settings.Host} {table : HostTable MountTable}
    (bound : bindHosts applications .empty hosts = .ok table) : EntriesApart hosts := by
  have nothing : Clear (Hostname.parse · true) Hostname.spelled ([] : List (String × MountTable)) :=
    .nil
  obtain ⟨mounts, clear, -⟩ := bindHosts_spec nothing bound
  constructor
  · intro h mem
    obtain ⟨binds, each, clear, -⟩ := bindMounts_spec .nil (mounts h mem)
    rw [paths_of_forall₂ each]
    exact clear.apart_patterns PathTable.alike_of_parse
  · have names : (hosts.flatMap fun h => h.names.map (·, mountTable applications h)).map (·.1) =
        hosts.flatMap (·.names) := by
      rw [List.map_flatMap]
      exact List.flatMap_congr fun h _ => by simp [Function.comp_def]
    rw [← names]
    exact clear.apart_patterns HostTable.alike_of_parse

end

theorem Stopped.not_apart {hosts : List Settings.Host} {e : RouteError}
    (stopped : Stopped [] hosts e) : ¬ EntriesApart hosts := by
  intro apart
  cases stopped with
  | mount mem split refused =>
    have paths := apart.mounts _ mem
    rw [split, List.map_append, List.map_cons] at paths
    exact refused.not_apart paths
  | name split refused =>
    have names := apart.names
    rw [split] at names
    exact refused.not_apart names

/-! ### The whole dispatcher -/

/-- The three ways in which the building can end. -/
theorem ofSettings_cases {s : Settings} (fits : s.fault? = none) :
    ((∀ x ∈ s.applications, Buildable x.kind) ∧ EntriesApart s.hosts ∧ ∃ d, ofSettings s = .ok d) ∨
      (∃ before x after fault, s.applications = before ++ x :: after ∧
        (∀ y ∈ before, Buildable y.kind) ∧ Flawed x.kind fault ∧
        ofSettings s = .error (.application x.name fault)) ∨
      (∀ x ∈ s.applications, Buildable x.kind) ∧
        ∃ e, Stopped [] s.hosts e ∧ ofSettings s = .error (.route e) := by
  unfold ofSettings
  rcases buildApplications_cases [] s.applications with
    ⟨buildable, applications, built⟩ | ⟨before, x, after, fault, split, all, flawed, failed⟩
  · rw [built]
    dsimp only
    have nothing : Clear (Hostname.parse · true) Hostname.spelled
      ([] : List (String × MountTable)) := .nil
    rcases bindHosts_cases nothing (known_of_fits fits built) with
      ⟨table, bound⟩ | ⟨e, stopped, failed⟩
    · have bound : bindHosts applications .empty s.hosts = .ok table := bound
      rw [bound]
      exact .inl ⟨buildable, apart_of_bindHosts bound, _, rfl⟩
    · have failed : bindHosts applications .empty s.hosts = .error (.route e) := failed
      rw [failed]
      exact .inr (.inr ⟨buildable, e, stopped, rfl⟩)
  · rw [failed]
    exact .inr (.inl ⟨before, x, after, fault, split, all, flawed, rfl⟩)

/-- Names that differ in case only cannot be told apart. -/
theorem not_apart_of_case {names : List String} {name name' : String}
    (both : [name, name'].Sublist names)
    (same : name.toList.map Char.toLower = name'.toList.map Char.toLower) :
    ¬ Apart (Hostname.parse · true) names := by
  intro apart
  obtain ⟨key, reads⟩ := apart.readable name (both.subset (by simp))
  obtain ⟨key', reads'⟩ := apart.readable name' (both.subset (by simp))
  have texts : key.hostText = key'.hostText := by
    rw [Hostname.hostText_of_parse reads, Hostname.hostText_of_parse reads',
      Hostname.spelled_congr same]
  obtain rfl := (Hostname.hostText_inj (Hostname.labels_of_parse reads)
    (Hostname.labels_of_parse reads')).1 texts
  have different := apart.distinct.sublist both
  simp only [List.pairwise_cons, List.mem_singleton, forall_eq] at different
  exact different.1 (reads.trans reads'.symm)

/-- From settings that fit together a dispatcher can be built exactly if every application can
answer, the mounts of each entry are apart and the names of all entries are apart; so two names that
differ in case only stand in the way. Otherwise the first application that cannot answer is reported
with what is wrong with it, or, if all can, a pattern that cannot be bound after those before it. A
mount without an application is never met. -/
theorem builds_iff {s : Settings} (fits : s.fault? = none) :
    ((∃ d, ofSettings s = .ok d) ↔
        (∀ x ∈ s.applications, Buildable x.kind) ∧ EntriesApart s.hosts) ∧
      (¬ (∀ x ∈ s.applications, Buildable x.kind) →
        ∃ before x after fault, s.applications = before ++ x :: after ∧
          (∀ y ∈ before, Buildable y.kind) ∧ Flawed x.kind fault ∧
          ofSettings s = .error (.application x.name fault)) ∧
      ((∀ x ∈ s.applications, Buildable x.kind) → ¬ EntriesApart s.hosts →
        ∃ e, Stopped [] s.hosts e ∧ ofSettings s = .error (.route e)) ∧
      (∀ path name, ofSettings s ≠ .error (.unknownApplication path name)) ∧
      ∀ name name', [name, name'].Sublist (s.hosts.flatMap (·.names)) →
        name.toList.map Char.toLower = name'.toList.map Char.toLower →
          ∀ d, ofSettings s ≠ .ok d := by
  have collide {name name' : String} (both : [name, name'].Sublist (s.hosts.flatMap (·.names)))
      (same : name.toList.map Char.toLower = name'.toList.map Char.toLower) :
      ¬ EntriesApart s.hosts := fun apart => not_apart_of_case both same apart.names
  rcases ofSettings_cases fits with
    ⟨buildable, apart, d, made⟩ | ⟨before, x, after, fault, split, all, flawed, failed⟩ |
      ⟨buildable, e, stopped, failed⟩
  · rw [made]
    refine ⟨iff_of_true ⟨d, rfl⟩ ⟨buildable, apart⟩, fun bad => absurd buildable bad,
      fun _ bad => absurd apart bad, fun _ _ => nofun, ?_⟩
    intro name name' both same
    exact absurd apart (collide both same)
  · have bad : ¬ ∀ y ∈ s.applications, Buildable y.kind :=
      fun all => flawed.not_buildable (all x (by rw [split]; simp))
    rw [failed]
    exact ⟨iff_of_false nofun fun good => bad good.1,
      fun _ => ⟨before, x, after, fault, split, all, flawed, rfl⟩, fun good => absurd good bad,
      nofun, fun _ _ _ _ => nofun⟩
  · rw [failed]
    exact ⟨iff_of_false nofun fun good => stopped.not_apart good.2,
      fun bad => absurd buildable bad, fun _ _ => ⟨e, stopped, rfl⟩, nofun, fun _ _ _ _ => nofun⟩

/-- The second entry has a name of the first one with capitals. Without this entry nothing stands in
the way: a directory and what is below it are two mounts, and a star is a name beside another. -/
theorem builds_iff_capitals :
    let first : Settings.Host := ⟨["a.example", "*"], [⟨"/x/*", "page"⟩, ⟨"/x/", "moved"⟩]⟩
    let s : Settings :=
      { server := { listeners := [⟨"127.0.0.1:80", false, none⟩] }
        applications := [⟨"page", .text "hello" 200 "text/plain" true⟩, ⟨"moved", .redirect "/" 308⟩]
        hosts := [first, ⟨["A.Example"], []⟩] }
    s.fault? = none ∧ (∀ x ∈ s.applications, Buildable x.kind) ∧ ¬ EntriesApart s.hosts ∧
      (∃ e, Stopped [] s.hosts e ∧ ofSettings s = .error (.route e)) ∧
      { s with hosts := [first] }.fault? = none ∧ EntriesApart [first] ∧
      ∃ d, ofSettings { s with hosts := [first] } = .ok d := by
  intro first s
  have fits : s.fault? = none := by decide +kernel
  have fits' : { s with hosts := [first] }.fault? = none := by decide +kernel
  have buildable : ∀ x ∈ s.applications, Buildable x.kind := by
    have plain : Sendable "text/plain" := isHeaderValue_iff.1 (by decide)
    simp [s, Buildable, plain]
  have both : ["a.example", "A.Example"].Sublist (s.hosts.flatMap (·.names)) := by decide
  have collide : ¬ EntriesApart s.hosts := fun apart =>
    not_apart_of_case both (by decide) apart.names
  have apart : EntriesApart [first] := by
    refine ⟨?_, ?_, by decide⟩
    · rintro h mem
      obtain rfl := List.mem_singleton.1 mem
      refine ⟨?_, by decide⟩
      simp only [first, List.map_cons, List.map_nil, List.forall_mem_cons]
      exact ⟨⟨_, rfl⟩, ⟨_, rfl⟩, nofun⟩
    · simp only [first, List.flatMap_cons, List.flatMap_nil, List.append_nil, List.forall_mem_cons]
      exact ⟨⟨_, rfl⟩, ⟨_, rfl⟩, nofun⟩
  obtain ⟨-, -, stops, -⟩ := builds_iff fits
  obtain ⟨built, -⟩ := builds_iff fits'
  exact ⟨fits, buildable, collide, stops buildable collide, fits', apart,
    built.2 ⟨buildable, apart⟩⟩

end Dispatcher

end Site

end Turnstile
