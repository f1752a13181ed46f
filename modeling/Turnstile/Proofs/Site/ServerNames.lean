import Turnstile.Proofs.Site.Dispatching
import Turnstile.Site.Certificates
import Turnstile.Site.ServerName

/-!
# The certificate for a server name and the entry for a host

Certificates and host entries stand in tables of the same kind. If both tables have the same names,
a host name finds the same pattern in both (`HostTable.pattern_eq`). They part where a name is no
host name: then the entry with the star is selected, but no certificate is offered, not even that of
the star (`HostTable.pattern_nameless`). A client can send such a name, since underscores may stand
in it (`star_not_offered`); nothing else is used of the rules for names that are sent.
-/

namespace Turnstile

/-! ### Two tables with the same names -/

namespace Routing

open Hostname (Answer IsHostname presented spelled parse)

theorem Selected.answer {α : Type} {bound : String → Option α} {host : String}
    {found : Option (String × α)} (selected : Selected bound host found)
    (hostname : IsHostname (presented host)) : Answer bound (presented host) found := by
  cases selected with
  | name _ answer => exact answer
  | nameless other => exact absurd hostname other

namespace HostTable

variable {α β : Type} {binds : List (String × α)} {binds' : List (String × β)} {host : String}

theorem isSome_bound_iff (clear : Clear (parse · true) spelled binds) {text : String} :
    (bound binds text).isSome ↔ ∃ name ∈ binds.map (·.1), spelled name = text := by
  rw [Option.isSome_iff_exists]
  constructor
  · rintro ⟨value, here⟩
    obtain ⟨name, mem, spelling⟩ := (bound_eq_some_iff clear).1 here
    exact ⟨name, List.mem_map_of_mem mem, spelling⟩
  · rintro ⟨_, mem, spelling⟩
    obtain ⟨⟨name, value⟩, present, rfl⟩ := List.mem_map.1 mem
    exact ⟨value, (bound_eq_some_iff clear).2 ⟨name, present, spelling⟩⟩

/-- What a table answers a name with is bound to it. -/
theorem bound_of_resolve? {b : Binding α} (found : (ofBinds binds).resolve? host = some b) :
    bound binds b.key.hostText = some b.value := by
  by_cases hostname : IsHostname (presented host)
  · have answer := answer_of_resolve? binds hostname
    rw [found] at answer
    exact (Selected.name hostname answer).bound_eq
  · rw [resolve?_eq_none hostname] at found
    cases found

/-- A host name finds the same pattern in both tables, whether or not one falls back to the star. -/
theorem pattern_eq (clear : Clear (parse · true) spelled binds)
    (clear' : Clear (parse · true) spelled binds')
    (same : ∀ name, name ∈ binds.map (·.1) ↔ name ∈ binds'.map (·.1))
    (hostname : IsHostname (presented host)) :
    ((ofBinds binds).resolve? host).map (·.key.hostText) =
      (((ofBinds binds').resolve? host).or (ofBinds binds').fallback?).map (·.key.hostText) := by
  have occupied (text : String) : (bound binds text).isSome = (bound binds' text).isSome := by
    rw [Bool.eq_iff_iff, isSome_bound_iff clear, isSome_bound_iff clear']
    simp only [same]
  have texts := Answer.text_eq occupied (answer_of_resolve? binds hostname)
    ((selected_ofBinds binds' host).answer hostname)
  rw [Option.map_map, Option.map_map] at texts
  exact texts

/-- What is no host name finds nothing, and falls back to the star if the star is bound. -/
theorem pattern_nameless (clear : Clear (parse · true) spelled binds)
    (nameless : ¬ IsHostname (presented host)) :
    (((ofBinds binds).resolve? host).or (ofBinds binds).fallback?).map (·.key.hostText) =
      if "*" ∈ (binds.map (·.1)).map spelled then some "*" else none := by
  have star : (bound binds "*").isSome ↔ "*" ∈ (binds.map (·.1)).map spelled := by
    rw [isSome_bound_iff clear, List.mem_map]
  have texts := congrArg (Option.map Prod.fst) <|
    (selected_ofBinds binds host).unique (.nameless nameless)
  rw [Option.map_map, Option.map_map] at texts
  refine texts.trans ?_
  cases here : bound binds "*" with
  | none =>
    rw [here] at star
    rw [if_neg (by simpa using star)]
    rfl
  | some value =>
    rw [here] at star
    rw [if_pos (star.1 rfl)]
    rfl

end HostTable

end Routing

namespace Site

open Routing
open Hostname (IsHostname presented spelled)

/-! ### What certificates are bound to -/

namespace CertificateTable

def credential (files : FileStore) (c : Settings.Certificate) : Credential :=
  (Credential.load files c).toOption.getD ⟨"", []⟩

/-- The names of certificates, each with what is loaded for it. -/
def certified (files : FileStore) (certificates : List Settings.Certificate) :
    List (String × Credential) :=
  certificates.flatMap fun c => c.names.map (·, credential files c)

theorem map_fst_certified (files : FileStore) (certificates : List Settings.Certificate) :
    (certified files certificates).map (·.1) = certificates.flatMap (·.names) := by
  rw [certified, List.map_flatMap]
  exact List.flatMap_congr fun c _ => by simp [Function.comp_def]

theorem mem_certified {files : FileStore} {certificates : List Settings.Certificate}
    {pattern : String} {own : Credential} :
    (pattern, own) ∈ certified files certificates ↔
      ∃ c ∈ certificates, pattern ∈ c.names ∧ credential files c = own := by
  simp [certified]

theorem bindNames_spec {file : String} {own : Credential} {binds : List (String × Credential)}
    {names : List String} {table : CertificateTable}
    (clear : Clear (Hostname.parse · true) spelled binds)
    (h : bindNames file own (HostTable.ofBinds binds) names = .ok table) :
    Clear (Hostname.parse · true) spelled (binds ++ names.map (·, own)) ∧
      table = HostTable.ofBinds (binds ++ names.map (·, own)) := by
  induction names generalizing binds with
  | nil =>
    cases h
    exact ⟨by rwa [List.map_nil, List.append_nil], by rw [List.map_nil, List.append_nil]⟩
  | cons name rest ih =>
    unfold bindNames at h
    split at h
    · cases h
    · next table' bound =>
      obtain ⟨clear', rfl⟩ := HostTable.bind_eq_ok clear bound
      obtain ⟨clear'', whole⟩ := ih clear' h
      rw [List.append_assoc] at clear'' whole
      exact ⟨clear'', whole⟩

theorem extend_spec {files : FileStore} {binds : List (String × Credential)}
    {certificates : List Settings.Certificate} {table : CertificateTable}
    (clear : Clear (Hostname.parse · true) spelled binds)
    (h : extend files (HostTable.ofBinds binds) certificates = .ok table) :
    (∀ c ∈ certificates, Credential.load files c = .ok (credential files c)) ∧
      Clear (Hostname.parse · true) spelled (binds ++ certified files certificates) ∧
      table = HostTable.ofBinds (binds ++ certified files certificates) := by
  induction certificates generalizing binds with
  | nil =>
    cases h
    rw [certified, List.flatMap_nil, List.append_nil]
    exact ⟨nofun, clear, rfl⟩
  | cons c rest ih =>
    unfold extend at h
    split at h
    · cases h
    · next own loaded =>
      have same : credential files c = own := by
        rw [credential, loaded]
        rfl
      split at h
      · cases h
      · next table' bound =>
        obtain ⟨clear', rfl⟩ := bindNames_spec clear bound
        obtain ⟨others, clear'', whole⟩ := ih clear' h
        rw [List.append_assoc] at clear'' whole
        rw [certified, List.flatMap_cons, same]
        exact ⟨List.forall_mem_cons.2 ⟨same ▸ loaded, others⟩, clear'', whole⟩

theorem load_spec {files : FileStore} {certificates : List Settings.Certificate}
    {table : CertificateTable} (loaded : load files certificates = .ok table) :
    (∀ c ∈ certificates, Credential.load files c = .ok (credential files c)) ∧
      Clear (Hostname.parse · true) spelled (certified files certificates) ∧
      table = HostTable.ofBinds (certified files certificates) := by
  have nothing : Clear (Hostname.parse · true) spelled ([] : List (String × Credential)) := .nil
  have spec := extend_spec nothing loaded
  rwa [List.nil_append] at spec

end CertificateTable

/-! ### What hosts are bound to -/

/-- The names of a dispatcher's table are those of the host entries. -/
theorem Dispatcher.hosts_spec {s : Settings} {d : Dispatcher} (made : ofSettings s = .ok d) :
    ∃ binds, Clear (Hostname.parse · true) spelled binds ∧ d.hosts = HostTable.ofBinds binds ∧
      binds.map (·.1) = s.hosts.flatMap (·.names) := by
  unfold ofSettings at made
  split at made
  · cases made
  · next applications _ =>
    split at made
    · cases made
    · next hosts bound =>
      cases made
      have nothing : Clear (Hostname.parse · true) spelled ([] : List (String × MountTable)) :=
        .nil
      obtain ⟨-, clear, whole⟩ := bindHosts_spec nothing bound
      refine ⟨_, clear, whole, ?_⟩
      rw [List.nil_append, List.map_flatMap]
      exact List.flatMap_congr fun h _ => by simp [Function.comp_def]

/-! ### Offered and selected -/

/-- The pattern whose certificate is offered for a server name. -/
def CertificateTable.pattern? (table : CertificateTable) (name : String) : Option String :=
  (table.resolve? name).map (·.key.hostText)

def Dispatcher.pattern? (d : Dispatcher) (host : String) : Option String :=
  (d.entry? host).map (·.key.hostText)

namespace CertificateTable

variable {files : FileStore} {certificates : List Settings.Certificate} {table : CertificateTable}

/-- What is offered is what was loaded for the certificate with the pattern that was found. -/
theorem resolveFor?_eq_some_iff (loaded : load files certificates = .ok table) {name : String}
    {own : Credential} :
    resolveFor? table (some name) = some own ↔
      ∃ c ∈ certificates, ∃ pattern ∈ c.names,
        table.pattern? name = some (spelled pattern) ∧ Credential.load files c = .ok own := by
  obtain ⟨each, clear, rfl⟩ := load_spec loaded
  constructor
  · intro offered
    obtain ⟨b, found, rfl⟩ := Option.map_eq_some_iff.1 offered
    obtain ⟨pattern, mem, spelling⟩ :=
      (HostTable.bound_eq_some_iff clear).1 (HostTable.bound_of_resolve? found)
    obtain ⟨c, listed, named, same⟩ := mem_certified.1 mem
    refine ⟨c, listed, pattern, named, ?_, same ▸ each c listed⟩
    rw [pattern?, found, spelling]
    rfl
  · rintro ⟨c, listed, pattern, named, found, read⟩
    obtain ⟨b, resolved, spelling⟩ := Option.map_eq_some_iff.1 found
    have bound := HostTable.bound_of_resolve? resolved
    have mem : (pattern, credential files c) ∈ certified files certificates :=
      mem_certified.2 ⟨c, listed, named, rfl⟩
    rw [spelling, (HostTable.bound_eq_some_iff clear).2 ⟨pattern, mem, rfl⟩] at bound
    rw [resolveFor?, resolved, Option.map_some, ← bound]
    exact congrArg some (Except.ok.inj ((each c listed).symm.trans read))

/-- The pattern whose certificate is offered for a name is the one that the name selects as a host,
if it is a host name. For any other name no certificate is offered, and the entry with the star is
selected, if there is a star. So the two agree on all names only where there is no star. -/
theorem pattern_eq_iff {s : Settings} {d : Dispatcher} (loaded : load files certificates = .ok table)
    (made : Dispatcher.ofSettings s = .ok d)
    (same : ∀ name, name ∈ certificates.flatMap (·.names) ↔ name ∈ s.hosts.flatMap (·.names))
    (name : String) :
    (IsHostname (presented name) → table.pattern? name = d.pattern? name) ∧
      (¬ IsHostname (presented name) → table.pattern? name = none ∧
        d.pattern? name = if "*" ∈ (s.hosts.flatMap (·.names)).map spelled then some "*" else none) ∧
      (table.pattern? name = d.pattern? name ↔
        IsHostname (presented name) ∨ "*" ∉ (s.hosts.flatMap (·.names)).map spelled) ∧
      ∀ own, resolveFor? table (some name) = some own ↔
        ∃ c ∈ certificates, ∃ pattern ∈ c.names,
          table.pattern? name = some (spelled pattern) ∧ Credential.load files c = .ok own := by
  have offers (own : Credential) : resolveFor? table (some name) = some own ↔
      ∃ c ∈ certificates, ∃ pattern ∈ c.names,
        table.pattern? name = some (spelled pattern) ∧ Credential.load files c = .ok own :=
    resolveFor?_eq_some_iff loaded
  obtain ⟨-, clear, rfl⟩ := load_spec loaded
  obtain ⟨binds, clear', whole, names⟩ := Dispatcher.hosts_spec made
  have alike (hostname : IsHostname (presented name)) :
      pattern? (HostTable.ofBinds (certified files certificates)) name = d.pattern? name := by
    rw [pattern?, Dispatcher.pattern?, Dispatcher.entry?, whole]
    exact HostTable.pattern_eq clear clear'
      (fun other => by rw [map_fst_certified, names]; exact same other) hostname
  have apart (nameless : ¬ IsHostname (presented name)) :
      pattern? (HostTable.ofBinds (certified files certificates)) name = none ∧ d.pattern? name =
        if "*" ∈ (s.hosts.flatMap (·.names)).map spelled then some "*" else none := by
    rw [pattern?, HostTable.resolve?_eq_none nameless, Dispatcher.pattern?, Dispatcher.entry?, whole,
      HostTable.pattern_nameless clear' nameless, names]
    exact ⟨rfl, rfl⟩
  refine ⟨alike, apart, ?_, offers⟩
  by_cases hostname : IsHostname (presented name)
  · exact iff_of_true (alike hostname) (.inl hostname)
  · obtain ⟨nothing, star⟩ := apart hostname
    rw [nothing, star]
    split
    · next bound => simp [hostname, bound]
    · next free => simp [free]

/-- Certificates and hosts that group and order the same names differently. -/
theorem pattern_eq_iff_underscore :
    let files : FileStore := fun file => .ok ⟨[.certificate file, .privateKey none], none⟩
    let certificates : List Settings.Certificate :=
      [⟨["*"], "all.pem", "key.pem"⟩, ⟨["*.Example.com", "example.com"], "own.pem", "key.pem"⟩]
    let s : Settings :=
      { server := { listeners := [⟨"127.0.0.1:443", true, none⟩] }
        certificates
        hosts := [⟨["example.com", "*"], []⟩, ⟨["*.Example.com"], []⟩] }
    s.fault? = none ∧ ∃ table d, load files certificates = .ok table ∧
      Dispatcher.ofSettings s = .ok d ∧
      d.pattern? "a.example.com" = some "*.example.com" ∧
      table.pattern? "a.example.com" = d.pattern? "a.example.com" ∧
      resolveFor? table (some "a.example.com") = some ⟨"own.pem", []⟩ ∧
      table.pattern? "a_b.example.com" = none ∧ d.pattern? "a_b.example.com" = some "*" := by
  intro files certificates s
  have built : ∃ table d, load files certificates = .ok table ∧ Dispatcher.ofSettings s = .ok d ∧
      d.pattern? "a.example.com" = some "*.example.com" := ⟨_, _, rfl, rfl, by decide +kernel⟩
  obtain ⟨table, d, loaded, made, selected⟩ := built
  have perm : (certificates.flatMap (·.names)).Perm (s.hosts.flatMap (·.names)) := by decide
  have name : IsHostname (presented "a.example.com") :=
    Hostname.isHostname_iff.2 ⟨["com", "example", "a"], rfl⟩
  have nameless : ¬ IsHostname (presented "a_b.example.com") := by
    rw [Hostname.isHostname_presented_iff]
    have unread : Hostname.candidate? "a_b.example.com" = none := by decide
    simp [unread]
  obtain ⟨alike, -, -, offers⟩ :=
    pattern_eq_iff loaded made (fun _ => perm.mem_iff) "a.example.com"
  obtain ⟨-, apart, -, -⟩ := pattern_eq_iff loaded made (fun _ => perm.mem_iff) "a_b.example.com"
  obtain ⟨nothing, star⟩ := apart nameless
  refine ⟨by decide +kernel, table, d, loaded, made, selected, alike name, ?_, nothing, star⟩
  exact (offers _).2 ⟨⟨["*.Example.com", "example.com"], "own.pem", "key.pem"⟩, by decide,
    "*.Example.com", by decide, (alike name).trans selected, rfl⟩

/-- A name that a client can send, for which nothing is offered though the star is bound. A client
that sends no name at all gets the certificate of the star. -/
theorem star_not_offered :
    let files : FileStore := fun file => .ok ⟨[.certificate file, .privateKey none], none⟩
    let s : Settings :=
      { server := { listeners := [⟨"127.0.0.1:443", true, none⟩] }
        certificates := [⟨["*"], "all.pem", "key.pem"⟩]
        hosts := [⟨["*"], []⟩] }
    let name := "a_b.example.com"
    s.fault? = none ∧ ServerName.sent? name = some (some name) ∧
      ∃ table d, load files s.certificates = .ok table ∧ Dispatcher.ofSettings s = .ok d ∧
        table.pattern? name = none ∧ d.pattern? name = some "*" ∧
        (offered table none).toOption.map (fun part =>
            (resolveFor? part (some name), resolveFor? part none)) =
          some (none, some ⟨"all.pem", []⟩) := by
  intro files s name
  exact ⟨by decide +kernel, by decide +kernel, _, _, rfl, rfl, by decide +kernel,
    by decide +kernel, by decide +kernel⟩

end CertificateTable

end Site

end Turnstile
