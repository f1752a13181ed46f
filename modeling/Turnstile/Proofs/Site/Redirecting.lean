import Mathlib.Data.List.TakeWhile
import Turnstile.Proofs.Http.Heads
import Turnstile.Proofs.Site.Relisting

/-!
# Where redirects lead

A redirect sends a client to its target without the slashes at the end, followed by what the mount
leaves of the path, or by a slash if nothing is left, and by the query. What is left is exactly what
follows the stem of the mount in the path of the request (`Built.parts_of_attempt`), so no slash of
it is lost or doubled (`redirects_by_rest`). If the target is a lone slash, nothing of it stands
before what is left, and a path with a doubled slash there leads away from the site
(`site_relative_redirects`, `redirect_off_site`). A request whose call is a redirect gets this
answer, unless a mount that is tried before has answered it (`Reaches.dispatch?_eq`).
-/

namespace Turnstile

namespace Routing.Pathname

/-- A path without a query that starts with a slash is the path that the request asks for. -/
theorem requested_of_slash {path : String} (clean : ∀ c ∈ path.toList, c ≠ '?' ∧ c ≠ '#')
    {more : String} (slash : path = "/" ++ more) : requested path = path := by
  have whole : dropQuery path.toList = path.toList := by
    apply List.takeWhile_eq_self_iff.2
    simpa using clean
  have first : path.toList.head? = some '/' := by
    rw [slash]
    simp
  unfold requested
  dsimp only
  rw [whole, if_pos first, String.ofList_toList]

/-- The stem of a pattern is empty or starts with a slash. -/
theorem stem_slash {pattern stem : String} {key : Key} (read : parse pattern true = .ok key)
    (written : pattern = stem ++ "/*") : stem = "" ∨ ∃ more, stem = "/" ++ more := by
  obtain ⟨more, slash⟩ := key.exists_pathText
  have chars : stem.toList ++ ['/', '*'] = '/' :: more.toList := by
    simpa [written, ← String.toList_inj] using (parse_spec read).1.symm.trans slash
  cases letters : stem.toList with
  | nil => exact .inl (String.toList_eq_nil_iff.1 letters)
  | cons c rest =>
    rw [letters, List.cons_append] at chars
    obtain ⟨first, -⟩ := List.cons.inj chars
    exact .inr ⟨String.ofList rest, by simp [← String.toList_inj, letters, first]⟩

/-- Nothing is left of a path that a pattern without a star names. -/
theorem Parts.rest_of_plain {pattern path base rest : String}
    (parts : Parts pattern path base rest) (plain : ¬ EndsInStar pattern) : rest = "" := by
  cases parts with
  | whole => rfl
  | stem written => exact absurd ⟨_, written⟩ plain

theorem Parts.slash {pattern path base rest : String} (parts : Parts pattern path base rest) :
    rest = "" ∨ ∃ more, rest = "/" ++ more := by
  cases parts with
  | whole => exact .inl rfl
  | stem _ _ slash => exact slash

/-- A path has a doubled slash behind the stem of a pattern. -/
def Doubled (pattern path : String) : Prop :=
  ∃ stem more, pattern = stem ++ "/*" ∧ path = stem ++ "//" ++ more

theorem Parts.doubled_iff {pattern path base rest : String}
    (parts : Parts pattern path base rest) :
    Doubled pattern path ↔ ∃ more, rest = "//" ++ more := by
  constructor
  · rintro ⟨stem, more, written, below⟩
    have split : path = stem ++ ("/" ++ ("/" ++ more)) := by
      rw [below, show "//" = "/" ++ "/" from rfl]
      simp only [String.append_assoc]
    exact ⟨more, (parts.unique (.stem written split (.inr ⟨_, rfl⟩))).2⟩
  · rintro ⟨more, below⟩
    cases parts with
    | whole => exact absurd below.symm (by simp)
    | stem written split => exact ⟨_, more, written, by rw [split, below, String.append_assoc]⟩

/-- What is left of a path below a stem is what follows the stem, and a slash if nothing does. -/
theorem rest_of_stem {pattern path stem rest base left : String} {key : Key}
    (read : parse pattern true = .ok key) (clean : ∀ c ∈ path.toList, c ≠ '?' ∧ c ≠ '#')
    (written : pattern = stem ++ "/*") (split : path = stem ++ rest)
    (slash : rest = "" ∨ ∃ more, rest = "/" ++ more)
    (parts : Parts pattern (requested path) base left) :
    (if left = "" then "/" else left) = if rest = "" then "/" else rest := by
  by_cases empty : path = ""
  · obtain ⟨none, nothing⟩ := String.append_eq_empty_iff.1 (split.symm.trans empty)
    have shown : requested path = stem ++ "/" := by
      rw [empty, none]
      rfl
    obtain ⟨-, whole⟩ := parts.unique (.stem written shown (.inr ⟨"", rfl⟩))
    rw [whole, if_neg (by decide), if_pos nothing]
  · have starts : ∃ more, path = "/" ++ more := by
      rcases stem_slash read written with rfl | ⟨more, rfl⟩
      · rw [split, String.empty_append] at empty ⊢
        exact slash.resolve_left empty
      · exact ⟨more ++ rest, by rw [split, String.append_assoc]⟩
    obtain ⟨more, starts⟩ := starts
    rw [requested_of_slash clean starts] at parts
    obtain ⟨-, same⟩ := parts.unique (.stem written split slash)
    rw [same]

end Routing.Pathname

namespace Site

open Routing Http
open Pathname (Doubled EndsInStar Parts requested)

/-- A text has slashes at its end, as many as there are, and this before them. -/
def Stripped (text base : String) : Prop :=
  (∃ n, text.toList = base.toList ++ List.replicate n '/') ∧ base.toList.getLast? ≠ some '/'

theorem Stripped.eq_trimSlashes {text base : String} (stripped : Stripped text base) :
    base = Application.trimSlashes text := by
  obtain ⟨⟨n, written⟩, last⟩ := stripped
  have kept : base.toList.reverse.dropWhile (· == '/') = base.toList.reverse := by
    rw [List.getLast?_eq_head?_reverse] at last
    cases backwards : base.toList.reverse with
    | nil => rfl
    | cons c more =>
      rw [backwards] at last
      exact List.dropWhile_cons_of_neg (by simpa using last)
  rw [Application.trimSlashes, written, List.reverse_append, List.reverse_replicate,
    List.dropWhile_append_of_pos (by simp), kept, List.reverse_reverse, String.ofList_toList]

theorem Stripped.unique {text base base' : String} (stripped : Stripped text base)
    (stripped' : Stripped text base') : base = base' :=
  stripped.eq_trimSlashes.trans stripped'.eq_trimSlashes.symm

/-- A location on the same site. What two slashes start is the name of a host. -/
def SiteRelative (location : String) : Prop :=
  (∃ more, location = "/" ++ more) ∧ ¬ ∃ more, location = "//" ++ more

theorem starts_iff {text : String} {signs : List Char} :
    (∃ more, text = String.ofList signs ++ more) ↔ ∃ more, text.toList = signs ++ more := by
  constructor
  · rintro ⟨more, rfl⟩
    exact ⟨more.toList, by simp⟩
  · rintro ⟨more, starts⟩
    exact ⟨String.ofList more, by simp [← String.toList_inj, starts]⟩

theorem siteRelative_iff {location : String} :
    SiteRelative location ↔
      ∃ more, location.toList = '/' :: more ∧ more.head? ≠ some '/' := by
  rw [SiteRelative, show "/" = String.ofList ['/'] from rfl,
    show "//" = String.ofList ['/', '/'] from rfl, starts_iff, starts_iff]
  constructor
  · rintro ⟨⟨more, starts⟩, single⟩
    refine ⟨more, starts, fun second => single ?_⟩
    obtain ⟨rest, rfl⟩ := List.head?_eq_some_iff.1 second
    exact ⟨rest, starts⟩
  · rintro ⟨more, starts, single⟩
    refine ⟨⟨more, starts⟩, ?_⟩
    rintro ⟨rest, double⟩
    obtain rfl : more = '/' :: rest := (List.cons.inj (starts.symm.trans double)).2
    exact single rfl

/-- Without the slashes at its end a location on the site is still one, unless it was a lone
slash. -/
theorem Stripped.of_siteRelative {target base : String} (stripped : Stripped target base)
    (relative : SiteRelative target) :
    target = "/" ∧ base = "" ∨
      target ≠ "/" ∧ ∃ c more, base.toList = '/' :: c :: more ∧ c ≠ '/' := by
  obtain ⟨⟨n, written⟩, last⟩ := stripped
  obtain ⟨more, starts, single⟩ := siteRelative_iff.1 relative
  rw [starts] at written
  cases front : base.toList with
  | nil =>
    left
    refine ⟨?_, String.toList_eq_nil_iff.1 front⟩
    rw [front, List.nil_append] at written
    match n, written with
    | 1, written => rw [← String.toList_inj, starts, written]; rfl
    | n + 2, written => exact absurd (by rw [(List.cons.inj written).2]; rfl) single
  | cons first rest =>
    right
    rw [front, List.cons_append] at written
    obtain ⟨rfl, tail⟩ := List.cons.inj written
    cases rest with
    | nil => exact absurd (by rw [front]; rfl) last
    | cons c rest =>
      rw [tail] at single starts
      refine ⟨?_, c, rest, rfl, fun slash => single (by rw [slash]; rfl)⟩
      rintro rfl
      simp at starts

/-- The query of a target as it was written. -/
def queryText (u : Uri) : String :=
  match u.query with
  | none => ""
  | some query => "?" ++ query

theorem head_queryText (u : Uri) : (queryText u).toList.head? ≠ some '/' := by
  unfold queryText
  split <;> simp

theorem siteRelative_slash_iff {more : String} {u : Uri} :
    SiteRelative ("/" ++ more ++ queryText u) ↔ more.toList.head? ≠ some '/' := by
  have chars : ("/" ++ more ++ queryText u).toList =
      '/' :: (more.toList ++ (queryText u).toList) := by
    simp
  have head : (more.toList ++ (queryText u).toList).head? = some '/' ↔
      more.toList.head? = some '/' := by
    cases more.toList with
    | nil => simp [head_queryText]
    | cons => rfl
  rw [siteRelative_iff, chars]
  constructor
  · rintro ⟨rest, starts, single⟩
    rwa [← (List.cons.inj starts).2, ne_eq, head] at single
  · exact fun single => ⟨_, rfl, mt head.1 single⟩

theorem siteRelative_rest_iff {rest : String} {u : Uri}
    (slash : rest = "" ∨ ∃ more, rest = "/" ++ more) :
    SiteRelative ((if rest = "" then "/" else rest) ++ queryText u) ↔
      ¬ ∃ more, rest = "//" ++ more := by
  rcases slash with rfl | ⟨more, rfl⟩
  · refine iff_of_true ?_ (by simp)
    exact siteRelative_iff.2 ⟨_, by simp, head_queryText u⟩
  · rw [if_neg (by simp), siteRelative_slash_iff, show "//" = String.ofList ['/', '/'] from rfl,
      starts_iff, ne_eq, List.head?_eq_some_iff]
    simp

theorem siteRelative_append {base : String} {c : Char} {more : List Char}
    (starts : base.toList = '/' :: c :: more) (other : c ≠ '/') (rest : String) :
    SiteRelative (base ++ rest) :=
  siteRelative_iff.2 ⟨c :: more ++ rest.toList, by simp [starts], by simpa using other⟩

/-- A call is answered by sending the client to a location, or declined if the location cannot be
sent. -/
structure Redirects (a : Application) (c : Call) (status : Nat) (location : String) : Prop where
  sent : Sendable location → a.answer? c = some ⟨status, [("location", location)], ""⟩
  declined : a.answer? c = none ↔ ¬ Sendable location

namespace Application

theorem stripped_trimSlashes (text : String) : Stripped text (trimSlashes text) := by
  have slashes : text.toList.reverse.takeWhile (· == '/') =
      List.replicate (text.toList.reverse.takeWhile (· == '/')).length '/' := by
    rw [List.eq_replicate_iff]
    exact ⟨rfl, fun c mem => by simpa using List.all_eq_true.1 List.all_takeWhile c mem⟩
  constructor
  · refine ⟨(text.toList.reverse.takeWhile (· == '/')).length, ?_⟩
    rw [trimSlashes, String.toList_ofList, ← List.reverse_replicate, ← slashes,
      ← List.reverse_append, List.takeWhile_append_dropWhile, List.reverse_reverse]
  · rw [trimSlashes, String.toList_ofList, List.getLast?_reverse]
    intro last
    have other := List.head?_dropWhile_not (· == '/') text.toList.reverse
    rw [last] at other
    exact absurd other (by decide)

theorem location_eq (target : String) (c : Call) :
    location target c =
      target ++ (if c.remainder = "" then "/" else c.remainder) ++ queryText c.request.uri := by
  have shown : (if c.remainder.isEmpty then "/" else c.remainder) =
      if c.remainder = "" then "/" else c.remainder :=
    if_congr String.isEmpty_iff rfl rfl
  exact congrArg (target ++ · ++ queryText c.request.uri) shown

theorem behaviour?_redirect {target : String} {status : Nat} {behaviour : Behaviour}
    (made : behaviour? (.redirect target status) = .ok behaviour) :
    behaviour = .redirect (trimSlashes target) status := by
  unfold behaviour? at made
  dsimp only at made
  split at made
  · cases made
  · split at made
    · cases made
    · cases made
      rfl

theorem redirects_of_configured {x : Settings.Application} {a : Application} {target : String}
    {status : Nat} (configured : ofSettings x = .ok a) (kind : x.kind = .redirect target status)
    (c : Call) : Redirects a c status (trimSlashes target ++
      (if c.remainder = "" then "/" else c.remainder) ++ queryText c.request.uri) := by
  have behaviour : a.behaviour = .redirect (trimSlashes target) status := by
    unfold ofSettings at configured
    split at configured
    · cases configured
    · next made =>
      rw [kind] at made
      cases configured
      exact behaviour?_redirect made
  rw [← location_eq]
  have answer : a.answer? c = if isHeaderValue (location (trimSlashes target) c) = true then
      some ⟨status, [("location", location (trimSlashes target) c)], ""⟩ else none := by
    rw [answer?, behaviour]
  constructor
  · intro sendable
    rw [answer, if_pos (isHeaderValue_iff.2 sendable)]
  · rw [answer, ← isHeaderValue_iff]
    simp

end Application

namespace Dispatcher

variable {s : Settings} {d : Dispatcher} {table : Settings.Host → MountTable} {r : Request}
  {a : Application} {c : Call}

/-- A call at a mount comes with the parts of the path as the pattern of the mount divides it. -/
theorem Built.parts_of_attempt (built : Built s d table) (tried : (a, c) ∈ d.attempts r) :
    c.request = r ∧ (∃ key, Pathname.parse c.mount true = .ok key) ∧
      Parts c.mount (requested r.uri.path) c.base c.remainder := by
  unfold attempts at tried
  dsimp only at tried
  split at tried
  · cases tried
  · next entry found =>
    obtain ⟨m, hm, same⟩ := List.mem_map.1 tried
    cases same
    obtain ⟨⟨binds, whole⟩, -⟩ := built.listed (built.mem_toList_of_entry? found)
    rw [whole] at hm
    obtain ⟨read, -⟩ := PathTable.mem_dispatch.1 hm
    exact ⟨rfl, ⟨_, read⟩, PathTable.parts_of_mem_dispatch hm⟩

/-- A request has come to a call: all that were tried before have declined. These are tried next. -/
def Reaches (d : Dispatcher) (r : Request) (a : Application) (c : Call)
    (next : List (Application × Call)) : Prop :=
  ∃ before, d.attempts r = before ++ (a, c) :: next ∧ ∀ t ∈ before, t.1.answer? t.2 = none

theorem Reaches.dispatch?_eq {next : List (Application × Call)} (reaches : d.Reaches r a c next) :
    d.dispatch? r = (a.answer? c).or (next.findSome? fun t => t.1.answer? t.2) := by
  obtain ⟨before, tried, declined⟩ := reaches
  have whole : d.dispatch? r = (d.attempts r).findSome? fun t => t.1.answer? t.2 :=
    dispatch?_eq_findSome? d r
  rw [whole, tried, List.findSome?_append, List.findSome?_eq_none_iff.2 declined, Option.none_or,
    List.findSome?_cons]
  cases a.answer? c <;> rfl

/-- A request that has come to a call is answered by sending the client to a location, or passed on
if the location cannot be sent. -/
structure Leads (d : Dispatcher) (r : Request) (a : Application) (c : Call) (status : Nat)
    (location : String) : Prop extends Redirects a c status location where
  answered {next : List (Application × Call)} : d.Reaches r a c next → Sendable location →
    d.dispatch? r = some ⟨status, [("location", location)], ""⟩
  passed {next : List (Application × Call)} : d.Reaches r a c next → ¬ Sendable location →
    d.dispatch? r = next.findSome? fun t => t.1.answer? t.2

theorem leads_of_redirects {status : Nat} {location : String}
    (redirects : Redirects a c status location) : Leads d r a c status location where
  toRedirects := redirects
  answered reaches sendable := by
    rw [reaches.dispatch?_eq, redirects.sent sendable]
    rfl
  passed reaches unsendable := by
    rw [reaches.dispatch?_eq, redirects.declined.2 unsendable, Option.none_or]

/-- A redirect sends a client to its target without the slashes at the end, followed by what stands
after the stem of its mount in the path, character for character, and by the query. A slash stands
for a path that ends with the stem, and for the path of a mount without a star. The client is sent
there unless this cannot be the value of a header field. -/
theorem redirects_by_rest {s : Settings} {d : Dispatcher} {text : String} {r : Request}
    {x : Settings.Application} {a : Application} {c : Call} {target : String} {status : Nat}
    (fits : s.fault? = none) (made : ofSettings s = .ok d) (read : Uri.parse? text = some r.uri)
    (tried : (a, c) ∈ d.attempts r) (configured : Application.ofSettings x = .ok a)
    (kind : x.kind = .redirect target status) :
    ∃ base, Stripped target base ∧
      (∀ stem rest, c.mount = stem ++ "/*" → r.uri.path = stem ++ rest →
        (rest = "" ∨ ∃ more, rest = "/" ++ more) →
        Leads d r a c status (base ++ (if rest = "" then "/" else rest) ++ queryText r.uri)) ∧
      (¬ EndsInStar c.mount → Leads d r a c status (base ++ "/" ++ queryText r.uri)) := by
  obtain ⟨table, built⟩ := built_of_ofSettings fits made
  obtain ⟨request, ⟨key, pattern⟩, parts⟩ := built.parts_of_attempt tried
  have redirects := Application.redirects_of_configured configured kind c
  rw [request] at redirects
  refine ⟨_, Application.stripped_trimSlashes target, ?_, ?_⟩
  · intro stem rest written split slash
    have clean := Uri.rules.path read
    rw [Pathname.rest_of_stem pattern clean written split slash parts] at redirects
    exact leads_of_redirects redirects
  · intro plain
    rw [if_pos (parts.rest_of_plain plain)] at redirects
    exact leads_of_redirects redirects

/-- What follows the stem has a doubled slash and one at its end, and the target has two. -/
theorem redirects_by_rest_doubled :
    let x : Settings.Application := ⟨"moved", .redirect "https://new.example//" 301⟩
    let s : Settings :=
      { server := { listeners := [⟨"127.0.0.1:80", false, none⟩] }
        applications := [x]
        hosts := [⟨["*"], [⟨"/old/*", "moved"⟩]⟩] }
    let r : Request := ⟨"GET", ⟨"", "/old//a/", some "q=1"⟩, [], .v4 [127, 0, 0, 1] 50000, false⟩
    let a : Application := ⟨"moved", .redirect "https://new.example" 301⟩
    let c : Call := ⟨r, "", "*", "/old/*", "/old", "//a/"⟩
    s.fault? = none ∧ Uri.parse? "/old//a/?q=1#top" = some r.uri ∧
      Application.ofSettings x = .ok a ∧ ∃ d, ofSettings s = .ok d ∧ d.attempts r = [(a, c)] ∧
        Leads d r a c 301 "https://new.example//a/?q=1" ∧
        d.dispatch? r = some ⟨301, [("location", "https://new.example//a/?q=1")], ""⟩ := by
  intro x s r a c
  have fits : s.fault? = none := by decide +kernel
  have read : Uri.parse? "/old//a/?q=1#top" = some r.uri := by decide +kernel
  have configured : Application.ofSettings x = .ok a := by cbv
  obtain ⟨d, made, tried⟩ : ∃ d, ofSettings s = .ok d ∧ d.attempts r = [(a, c)] :=
    ⟨_, rfl, by decide +kernel⟩
  have mem : (a, c) ∈ d.attempts r := by
    rw [tried]
    exact List.mem_singleton_self _
  obtain ⟨base, stripped, below, -⟩ := redirects_by_rest fits made read mem configured rfl
  have leads := below "/old" "//a/" (by decide) (by decide) (.inr ⟨"/a/", by decide⟩)
  have slashless : Stripped "https://new.example//" "https://new.example" :=
    ⟨⟨2, by decide⟩, by decide⟩
  obtain rfl := stripped.unique slashless
  have sendable : Sendable "https://new.example//a/?q=1" := isHeaderValue_iff.1 (by decide)
  exact ⟨fits, read, configured, d, made, tried, leads, leads.answered ⟨[], tried, nofun⟩ sendable⟩

/-- A redirect with a target on the site stays on the site, with one exception: nothing remains of a
lone slash, and what stands behind the stem of the mount is then taken for a host if it starts with
two. This is what the dispatcher answers if the request comes to the redirect. -/
theorem site_relative_redirects {s : Settings} {d : Dispatcher} {r : Request}
    {x : Settings.Application} {a : Application} {c : Call} {target : String} {status : Nat}
    {response : Response} (fits : s.fault? = none) (made : ofSettings s = .ok d)
    (tried : (a, c) ∈ d.attempts r) (configured : Application.ofSettings x = .ok a)
    (kind : x.kind = .redirect target status) (relative : SiteRelative target)
    (answered : a.answer? c = some response) :
    ∃ location, response.headers = [("location", location)] ∧ (∃ more, location = "/" ++ more) ∧
      (SiteRelative location ↔ ¬ (target = "/" ∧ Doubled c.mount (requested r.uri.path))) ∧
      ∀ next, d.Reaches r a c next → d.dispatch? r = some response := by
  obtain ⟨table, built⟩ := built_of_ofSettings fits made
  obtain ⟨request, -, parts⟩ := built.parts_of_attempt tried
  have redirects := Application.redirects_of_configured configured kind c
  rw [request] at redirects
  obtain ⟨sent, declined⟩ := redirects
  have sendable := not_not.1 (mt declined.2 (by simp [answered]))
  have dispatched (next) (reaches : d.Reaches r a c next) : d.dispatch? r = some response := by
    rw [reaches.dispatch?_eq, answered]
    rfl
  rw [sent sendable] at answered
  cases answered
  refine ⟨_, rfl, and_assoc.1 ⟨?_, dispatched⟩⟩
  rw [String.append_assoc]
  obtain ⟨alone, nothing⟩ | ⟨longer, letter, rest, starts, other⟩ :=
    (Application.stripped_trimSlashes target).of_siteRelative relative
  · rw [nothing, String.empty_append, siteRelative_rest_iff parts.slash, parts.doubled_iff]
    refine ⟨?_, not_congr (and_iff_right alone).symm⟩
    rcases parts.slash with none | ⟨more, below⟩
    · exact ⟨_, by rw [if_pos none]⟩
    · exact ⟨more ++ queryText r.uri, by rw [below, if_neg (by simp), String.append_assoc]⟩
  · have relative := siteRelative_append starts other
      ((if c.remainder = "" then "/" else c.remainder) ++ queryText r.uri)
    exact ⟨relative.1, iff_of_true relative fun bad => longer bad.1⟩

/-- The target has a name, and a slash at its end that is not sent. -/
theorem site_relative_redirects_doubled :
    let x : Settings.Application := ⟨"moved", .redirect "/new/" 308⟩
    let s : Settings :=
      { server := { listeners := [⟨"127.0.0.1:80", false, none⟩] }
        applications := [x]
        hosts := [⟨["*"], [⟨"/old/*", "moved"⟩]⟩] }
    let r : Request :=
      ⟨"GET", ⟨"", "/old//evil.example/x", none⟩, [], .v4 [127, 0, 0, 1] 50000, false⟩
    let a : Application := ⟨"moved", .redirect "/new" 308⟩
    let c : Call := ⟨r, "", "*", "/old/*", "/old", "//evil.example/x"⟩
    s.fault? = none ∧ SiteRelative "/new/" ∧ Application.ofSettings x = .ok a ∧
      (∃ d, ofSettings s = .ok d ∧ d.attempts r = [(a, c)] ∧
        d.dispatch? r = some ⟨308, [("location", "/new//evil.example/x")], ""⟩) ∧
      SiteRelative "/new//evil.example/x" := by
  intro x s r a c
  have fits : s.fault? = none := by decide +kernel
  have configured : Application.ofSettings x = .ok a := by cbv
  have relative : SiteRelative "/new/" := siteRelative_iff.2 ⟨"new/".toList, by decide, by decide⟩
  have answered : a.answer? c = some ⟨308, [("location", "/new//evil.example/x")], ""⟩ := by
    decide +kernel
  obtain ⟨d, made, tried⟩ : ∃ d, ofSettings s = .ok d ∧ d.attempts r = [(a, c)] :=
    ⟨_, rfl, by decide +kernel⟩
  have mem : (a, c) ∈ d.attempts r := by
    rw [tried]
    exact List.mem_singleton_self _
  obtain ⟨location, sent, -, stays, dispatched⟩ :=
    site_relative_redirects fits made mem configured rfl relative answered
  cases sent
  exact ⟨fits, relative, configured, ⟨d, made, tried, dispatched [] ⟨[], tried, nofun⟩⟩,
    stays.2 fun bad => absurd bad.1 (by decide)⟩

/-- The target is a lone slash, and the path names a host behind the stem. -/
theorem redirect_off_site :
    let s : Settings :=
      { server := { listeners := [⟨"127.0.0.1:80", false, none⟩] }
        applications := [⟨"moved", .redirect "/" 308⟩]
        hosts := [⟨["*"], [⟨"/old/*", "moved"⟩]⟩] }
    let r : Request :=
      ⟨"GET", ⟨"", "/old//evil.example/x", none⟩, [], .v4 [127, 0, 0, 1] 50000, false⟩
    s.fault? = none ∧ SiteRelative "/" ∧ (∃ d, ofSettings s = .ok d ∧
      d.dispatch? r = some ⟨308, [("location", "//evil.example/x")], ""⟩) ∧
      ¬ SiteRelative "//evil.example/x" := by
  intro s r
  have relative : SiteRelative "/" := siteRelative_iff.2 ⟨[], by decide, by decide⟩
  refine ⟨by decide +kernel, relative, ⟨_, rfl, by decide +kernel⟩, ?_⟩
  rintro ⟨-, single⟩
  exact single ⟨"evil.example/x", by decide⟩

end Dispatcher

end Site

end Turnstile
