import Turnstile.Proofs.Http.Heads
import Turnstile.Proofs.Routing.Answers
import Turnstile.Site.Dispatcher

/-!
# Addressed by target or by field

A request names its host in its target, or else in its `host` field. The target loses all that
follows the first colon and keeps the brackets of a literal. The field loses what follows the last
colon, and only if this is a port of digits, and of a literal it keeps what stands in the brackets.
The same authority still selects the same entry (`authority_routes_alike`), since neither a colon nor
a bracket can stand in a host name, unless something else stands in the place of the port or the
brackets are around a host name (`authority_parts_from_field`). Of the way in which targets are read
only `Uri.Rules` is used.
-/

namespace Turnstile

namespace Routing.Hostname

theorem mem_dropTrailingDot {name : List Char} {c : Char} (mem : c ∈ name) (other : c ≠ '.') :
    c ∈ dropTrailingDot name := by
  unfold dropTrailingDot
  split
  · next last =>
    obtain ⟨front, rfl⟩ := List.getLast?_eq_some_iff.1 last
    simpa [other] using mem
  · exact mem

/-- Other characters than those of labels and dots do not stand in host names. -/
theorem not_isHostname_of_mem {host : String} {c : Char} (mem : c ∈ host.toList) (dot : c ≠ '.')
    (other : ¬ isLabelChar c) : ¬ IsHostname (presented host) := by
  intro hostname
  obtain ⟨key, found⟩ := isHostname_presented_iff.1 hostname
  obtain ⟨-, -, read⟩ := candidate?_eq_some_iff.1 found
  exact (char_of_readName read (mem_dropTrailingDot mem dot)).elim dot other

end Routing.Hostname

namespace Site

open Routing Http
open Hostname (IsHostname presented)

namespace Dispatcher

theorem stripPort_bracketed {inside rest : List Char} (within : ']' ∉ inside) :
    stripPort ('[' :: inside ++ ']' :: rest) = inside :=
  Text.takeWhile_append_sep within rest

section

variable {host port authority : List Char}

theorem plain_append_colon (plain : host.head? ≠ some '[') (rest : List Char) :
    (host ++ ':' :: rest).head? ≠ some '[' := by
  cases host with
  | nil => simp
  | cons => exact plain

theorem stripPort_of_not_mem (plain : authority.head? ≠ some '[') (none : ':' ∉ authority) :
    stripPort authority = authority := by
  have nothing : authority.reverse.dropWhile (· != ':') = [] :=
    List.dropWhile_eq_nil_iff.2 (Text.bne_of_not_mem (by simpa using none))
  unfold stripPort
  split
  · exact absurd rfl plain
  · dsimp only
    rw [nothing]

theorem stripPort_of_last (plain : host.head? ≠ some '[') (last : ':' ∉ port) :
    stripPort (host ++ ':' :: port) =
      if port.all Char.isDigit then host else host ++ ':' :: port := by
  have backwards : (host ++ ':' :: port).reverse = port.reverse ++ ':' :: host.reverse := by simp
  have last' : ':' ∉ port.reverse := by simpa using last
  unfold stripPort
  split
  · next whole => exact absurd (by rw [whole]; rfl) (plain_append_colon plain port)
  · dsimp only
    rw [backwards, Text.takeWhile_append_sep last', Text.dropWhile_append_sep last']
    simp

/-- Where something else than a port follows a colon, a colon is left. -/
theorem colon_mem_stripPort (plain : host.head? ≠ some '[') (odd : ¬ ∀ c ∈ port, c.isDigit) :
    ':' ∈ stripPort (host ++ ':' :: port) := by
  by_cases more : ':' ∈ port
  · obtain ⟨last, front, backwards, none⟩ :=
      List.eq_append_cons_of_mem (List.mem_reverse.2 more)
    have split : host ++ ':' :: port = (host ++ ':' :: front.reverse) ++ ':' :: last.reverse := by
      rw [← List.reverse_reverse port, backwards]
      simp
    rw [split, stripPort_of_last (plain_append_colon plain _) (by simpa using none)]
    split <;> simp
  · rw [stripPort_of_last plain more, if_neg (by simpa using odd)]
    simp

end

/-- An authority has this for a port, or in its place: outside of a literal, what follows the first
colon. -/
structure Ported (authority host port : String) : Prop where
  written : authority = host ++ ":" ++ port
  first : ':' ∉ host.toList
  plain : host.toList.head? ≠ some '['

structure Bracketed (authority inside : String) : Prop where
  written : ∃ rest, authority = "[" ++ inside ++ "]" ++ rest
  within : ']' ∉ inside.toList

theorem Ported.toList_eq {authority host port : String} (ported : Ported authority host port) :
    authority.toList = host.toList ++ ':' :: port.toList := by
  simp [ported.written]

theorem Ported.unique {authority host host' port port' : String}
    (ported : Ported authority host port) (ported' : Ported authority host' port') :
    host = host' ∧ port = port' := by
  have chars := ported.toList_eq
  have chars' := ported'.toList_eq
  have same : host.toList = host'.toList := by
    rw [← Text.takeWhile_append_sep ported.first port.toList, ← chars, chars',
      Text.takeWhile_append_sep ported'.first]
  rw [chars, same] at chars'
  exact ⟨String.toList_inj.1 same,
    String.toList_inj.1 (List.cons.inj (List.append_cancel_left chars')).2⟩

theorem Bracketed.toList_eq {authority inside : String} (bracketed : Bracketed authority inside) :
    ∃ rest, authority.toList = '[' :: inside.toList ++ ']' :: rest := by
  obtain ⟨rest, written⟩ := bracketed.written
  exact ⟨rest.toList, by simp [written]⟩

/-- An authority starts with a literal, or has a port or something in its place, or neither. -/
theorem authority_cases {authority : String} (accepted : Uri.isAuthority authority.toList = true) :
    (∃ inside, Bracketed authority inside) ∨ (∃ host port, Ported authority host port) ∨
      authority.toList.head? ≠ some '[' ∧ ':' ∉ authority.toList := by
  by_cases literal : authority.toList.head? = some '['
  · obtain ⟨rest, chars⟩ := List.head?_eq_some_iff.1 literal
    rw [chars] at accepted
    obtain ⟨inside, after, split, within⟩ :=
      List.eq_append_cons_of_mem (Uri.rules.closed accepted)
    refine .inl ⟨String.ofList inside, ⟨String.ofList after, ?_⟩, by simpa using within⟩
    simp [← String.toList_inj, chars, split]
  · by_cases colon : ':' ∈ authority.toList
    · obtain ⟨host, port, split, first⟩ := List.eq_append_cons_of_mem colon
      refine .inr (.inl ⟨String.ofList host, String.ofList port, ?_, by simpa using first, ?_⟩)
      · simp [← String.toList_inj, split]
      · intro head
        obtain ⟨rest, chars⟩ := List.head?_eq_some_iff.1 head
        rw [String.toList_ofList] at chars
        exact literal (by rw [split, chars]; rfl)
    · exact .inr (.inr ⟨literal, colon⟩)

section

variable {authority : String} {r : Request}

/-- A request that names its host in its target. -/
theorem requestHost?_of_absolute {path : String}
    (accepted : Uri.isAuthority authority.toList = true)
    (read : Uri.parse? ("http://" ++ authority ++ "/" ++ path) = some r.uri) :
    requestHost? r = some (String.ofList (Uri.hostOf authority.toList)) := by
  obtain ⟨same, some⟩ := Uri.rules.absolute accepted read
  simp [requestHost?, Uri.host?, same, some]

/-- A request that names its host in a field. -/
theorem requestHost?_of_field {path : String}
    (accepted : Uri.isAuthority authority.toList = true)
    (read : Uri.parse? ("/" ++ path) = some r.uri)
    (field : r.headers.value? "host" = some authority) :
    requestHost? r = some (String.ofList (stripPort authority.toList)) := by
  have readable : plainText? authority = some authority :=
    if_pos (List.all_eq_true.2 fun c mem => Uri.rules.printable accepted c mem)
  simp [requestHost?, Uri.host?, Uri.rules.relative read, Headers.text?, field, readable]

end

/-- What is no host name selects the entry with the star, if there is one. -/
theorem entry?_of_nameless (d : Dispatcher) {host : String}
    (nameless : ¬ IsHostname (presented host)) : d.entry? host = d.hosts.fallback? := by
  unfold entry?
  rw [HostTable.resolve?_eq_none nameless, Option.none_or]

section

variable (d : Dispatcher) {authority : String} (userless : '@' ∉ authority.toList)
include userless

/-- In the target a literal is no host name, but the field is read without the brackets. -/
theorem entry?_of_bracketed {inside : String} (bracketed : Bracketed authority inside) :
    d.entry? (String.ofList (Uri.hostOf authority.toList)) = d.hosts.fallback? ∧
      d.entry? (String.ofList (stripPort authority.toList)) = d.entry? inside := by
  obtain ⟨rest, chars⟩ := bracketed.toList_eq
  rw [chars] at userless ⊢
  rw [Uri.rules.literal userless bracketed.within, stripPort_bracketed bracketed.within,
    String.ofList_toList]
  refine ⟨entry?_of_nameless d ?_, rfl⟩
  exact Hostname.not_isHostname_of_mem (c := '[') (by simp) (by decide) (by decide)

/-- What the field loses only if it is a port, the target always loses. -/
theorem entry?_of_ported {host port : String} (ported : Ported authority host port) :
    d.entry? (String.ofList (Uri.hostOf authority.toList)) = d.entry? host ∧
      ((∀ c ∈ port.toList, c.isDigit) →
        d.entry? (String.ofList (stripPort authority.toList)) = d.entry? host) ∧
      ((¬ ∀ c ∈ port.toList, c.isDigit) →
        d.entry? (String.ofList (stripPort authority.toList)) = d.hosts.fallback?) := by
  have plain : authority.toList.head? ≠ some '[' := by
    rw [ported.toList_eq]
    exact plain_append_colon ported.plain _
  have target : Uri.hostOf authority.toList = host.toList := by
    rw [Uri.rules.host userless plain, ported.toList_eq,
      Text.takeWhile_append_sep ported.first]
  rw [target, String.ofList_toList, ported.toList_eq]
  refine ⟨rfl, fun digits => ?_, fun odd => ?_⟩
  · have last : ':' ∉ port.toList := fun mem => absurd (digits ':' mem) (by decide)
    rw [stripPort_of_last ported.plain last, if_pos (List.all_eq_true.2 digits),
      String.ofList_toList]
  · have colon := colon_mem_stripPort ported.plain odd
    apply entry?_of_nameless
    exact Hostname.not_isHostname_of_mem (c := ':') (by simpa using colon) (by decide) (by decide)

theorem entry?_of_bare (plain : authority.toList.head? ≠ some '[') (none : ':' ∉ authority.toList) :
    d.entry? (String.ofList (Uri.hostOf authority.toList)) =
      d.entry? (String.ofList (stripPort authority.toList)) := by
  rw [Uri.rules.host userless plain, Text.takeWhile_of_not_mem none,
    stripPort_of_not_mem plain none]

end

/-- An authority without a user selects the same entry from the target of a request as from the
`host` field, if nothing but a port stands in the place of the port and no brackets are around a host
name. If something else stands in the place of the port, it is cut off in the target, but in the
field the text is then no host name. -/
theorem authority_routes_alike (d : Dispatcher) {authority path : String} {r r' : Request}
    (accepted : Uri.isAuthority authority.toList = true) (userless : '@' ∉ authority.toList)
    (target : Uri.parse? ("http://" ++ authority ++ "/" ++ path) = some r.uri)
    (target' : Uri.parse? ("/" ++ path) = some r'.uri)
    (field : r'.headers.value? "host" = some authority) :
    let selected := d.entry? ((requestHost? r).getD "")
    let selected' := d.entry? ((requestHost? r').getD "")
    ((∀ host port, Ported authority host port → ∀ c ∈ port.toList, c.isDigit) →
      (∀ inside, Bracketed authority inside → ¬ IsHostname (presented inside)) →
      selected = selected') ∧
    ∀ host port, Ported authority host port → (¬ ∀ c ∈ port.toList, c.isDigit) →
      selected = d.entry? host ∧ selected' = d.hosts.fallback? := by
  intro selected selected'
  have first : selected = d.entry? (String.ofList (Uri.hostOf authority.toList)) := by
    rw [← Option.getD_some (a := String.ofList _), ← requestHost?_of_absolute accepted target]
  have second : selected' = d.entry? (String.ofList (stripPort authority.toList)) := by
    rw [← Option.getD_some (a := String.ofList _), ← requestHost?_of_field accepted target' field]
  rw [first, second]
  constructor
  · intro digits literal
    rcases authority_cases accepted with ⟨inside, bracketed⟩ | ⟨host, port, ported⟩ | ⟨plain, none⟩
    · obtain ⟨outer, inner⟩ := entry?_of_bracketed d userless bracketed
      rw [outer, inner, entry?_of_nameless d (literal inside bracketed)]
    · obtain ⟨cut, kept, -⟩ := entry?_of_ported d userless ported
      rw [cut, kept (digits host port ported)]
    · exact entry?_of_bare d userless plain none
  · intro host port ported odd
    obtain ⟨cut, -, kept⟩ := entry?_of_ported d userless ported
    exact ⟨cut, kept odd⟩

/-- Capitals and a port. -/
theorem authority_routes_alike_port :
    let s : Settings :=
      { server := { listeners := [⟨"127.0.0.1:80", false, none⟩] }
        hosts := [⟨["a.example"], []⟩, ⟨["*"], []⟩] }
    let authority := "A.example:8443"
    let r : Request := ⟨"GET", ⟨authority, "/x", none⟩, [], .v4 [127, 0, 0, 1] 50000, false⟩
    let r' : Request :=
      ⟨"GET", ⟨"", "/x", none⟩, [("host", authority)], .v4 [127, 0, 0, 1] 50000, false⟩
    Uri.parse? ("http://" ++ authority ++ "/" ++ "x") = some r.uri ∧
      Uri.parse? ("/" ++ "x") = some r'.uri ∧ Ported authority "A.example" "8443" ∧
      ∃ d, ofSettings s = .ok d ∧
        d.entry? ((requestHost? r).getD "") = d.entry? ((requestHost? r').getD "") ∧
        (d.entry? ((requestHost? r).getD "")).map (·.key.hostText) = some "a.example" := by
  intro s authority r r'
  have target : Uri.parse? ("http://" ++ authority ++ "/" ++ "x") = some r.uri := by
    decide +kernel
  have target' : Uri.parse? ("/" ++ "x") = some r'.uri := by decide +kernel
  have ported : Ported authority "A.example" "8443" := ⟨by decide, by decide, by decide⟩
  have literal : ∀ inside, ¬ Bracketed authority inside := by
    intro inside bracketed
    obtain ⟨rest, chars⟩ := bracketed.toList_eq
    have first : authority.toList.head? = some 'A' := by decide
    simp [chars] at first
  refine ⟨target, target', ported, ?_⟩
  obtain ⟨d, made, found⟩ : ∃ d, ofSettings s = .ok d ∧
      (d.entry? ((requestHost? r).getD "")).map (·.key.hostText) = some "a.example" :=
    ⟨_, rfl, by decide +kernel⟩
  obtain ⟨alike, -⟩ := authority_routes_alike d (by decide) (by decide) target target' rfl
  refine ⟨d, made, alike ?_ fun inside bracketed => absurd bracketed (literal inside), found⟩
  intro host port other
  obtain ⟨-, rfl⟩ := ported.unique other
  exact List.all_eq_true.1 (by decide)

/-- A word in the place of a port, which only the target loses, and brackets around a host name,
which only the field loses. -/
theorem authority_parts_from_field :
    let s : Settings :=
      { server := { listeners := [⟨"127.0.0.1:80", false, none⟩] }
        hosts := [⟨["a.example"], []⟩, ⟨["v1.a"], []⟩, ⟨["*"], []⟩] }
    let byTarget (authority : String) : Request :=
      ⟨"GET", ⟨authority, "/x", none⟩, [], .v4 [127, 0, 0, 1] 50000, false⟩
    let byField (authority : String) : Request :=
      ⟨"GET", ⟨"", "/x", none⟩, [("host", authority)], .v4 [127, 0, 0, 1] 50000, false⟩
    Uri.parse? "http://a.example:http/x" = some (byTarget "a.example:http").uri ∧
      Uri.parse? "http://[v1.a]:80/x" = some (byTarget "[v1.a]:80").uri ∧
      (∀ authority, Uri.parse? "/x" = some (byField authority).uri) ∧
      ∃ d, ofSettings s = .ok d ∧
        let selected (r : Request) := (d.entry? ((requestHost? r).getD "")).map (·.key.hostText)
        selected (byTarget "a.example:http") = some "a.example" ∧
          selected (byField "a.example:http") = some "*" ∧
          selected (byTarget "[v1.a]:80") = some "*" ∧
          selected (byField "[v1.a]:80") = some "v1.a" := by
  intro s byTarget byField
  have relative : Uri.parse? "/x" = some ⟨"", "/x", none⟩ := by decide +kernel
  refine ⟨by decide +kernel, by decide +kernel, fun _ => relative, _, rfl, ?_⟩
  exact ⟨by decide +kernel, by decide +kernel, by decide +kernel, by decide +kernel⟩

end Dispatcher

end Site

end Turnstile
