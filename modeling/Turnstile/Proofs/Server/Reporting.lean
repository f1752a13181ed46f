import Turnstile.Proofs.Metering.Lasting
import Turnstile.Proofs.Server.Restarting
import Turnstile.Server.Connection

/-!
# What operators are told about the limits

Two pages tell operators about the limits. The page with the settings shows those of the last reload
that was accepted (`Stands`). The page with the buckets shows the limiter, which keeps its terms
whatever happens (`happen_terms?`). So the pages agree exactly if the limits that were accepted last
are like those that the server was started with (`limits_reported`).
-/

namespace Turnstile.Server

open Data Http Metering Site

/-! ### A server that runs -/

inductive Event where
  | post (p : Post)
  | requests (requests : List Request) (shutAfter : Option Nat)
  | knock
  | greet (granted : Bool) (greeting : Option Greeting)
  | pause (ms : Nat)
  | shut

def happen (s : Server) : Event → Server
  | .post p => (s.post p).2
  | .requests requests shutAfter => (s.handleAll requests shutAfter).2
  | .knock => s.knock.2
  | .greet granted greeting => (s.settleConnection granted greeting).2
  | .pause ms => s.sleep ms
  | .shut => s.shutGates

def after (s : Server) (events : List Event) : Server := events.foldl happen s

theorem after_concat (s : Server) (events : List Event) (e : Event) :
    s.after (events ++ [e]) = (s.after events).happen e := List.foldl_append

/-! Only a reload has to do with the settings, and nothing has to do with the terms. -/

theorem arriveAll_keeps (s : Server) (requests : List Request) :
    (s.arriveAll requests).2.running = s.running ∧
      (s.arriveAll requests).2.timeline.terms? = s.timeline.terms? := by
  induction requests generalizing s with
  | nil => exact ⟨rfl, rfl⟩
  | cons r rest ih =>
    obtain ⟨running, terms⟩ := ih (s.arrive r).2
    exact ⟨running, terms.trans (s.timeline.terms?_request .requests _)⟩

theorem concludeAll_keeps (s : Server) (began : Nat) (visits : List Visit) :
    (s.concludeAll began visits).2.running = s.running ∧
      (s.concludeAll began visits).2.timeline = s.timeline := by
  induction visits generalizing s with
  | nil => exact ⟨rfl, rfl⟩
  | cons v rest ih =>
    unfold concludeAll
    dsimp only
    split
    all_goals
      dsimp only
      split
      · exact ih (s.answer v.request).2
      · exact ih (s.refuse v.request).2

theorem handleAll_keeps (s : Server) (requests : List Request) (shutAfter : Option Nat) :
    (s.handleAll requests shutAfter).2.running = s.running ∧
      (s.handleAll requests shutAfter).2.timeline.terms? = s.timeline.terms? := by
  obtain ⟨running, terms⟩ := arriveAll_keeps s requests
  have ends (timeline : Timeline)
      (same : timeline.terms? = (s.arriveAll requests).2.timeline.terms?) (visits : List Visit) :
      let ended := ({ (s.arriveAll requests).2 with timeline } : Server).concludeAll
        s.timeline.now visits
      ended.2.running = s.running ∧ ended.2.timeline.terms? = s.timeline.terms? := by
    obtain ⟨running', timeline'⟩ := concludeAll_keeps
      { (s.arriveAll requests).2 with timeline } s.timeline.now visits
    exact ⟨running'.trans running, (congrArg Timeline.terms? timeline').trans (same.trans terms)⟩
  cases shutAfter with
  | none => exact ends _ (Timeline.terms?_drain _ _ _) _
  | some ms =>
    refine ends _ ?_ _
    rw [Timeline.terms?_drain, Timeline.terms?_denyAll, Timeline.terms?_sleep]

theorem settleConnection_keeps (s : Server) (granted : Bool) (greeting : Option Greeting) :
    (s.settleConnection granted greeting).2.running = s.running ∧
      (s.settleConnection granted greeting).2.timeline = s.timeline := by
  unfold settleConnection
  dsimp only
  split
  · exact ⟨rfl, rfl⟩
  · split
    · exact ⟨rfl, rfl⟩
    · split <;> exact ⟨rfl, rfl⟩

theorem happen_terms? (s : Server) (e : Event) :
    (s.happen e).timeline.terms? = s.timeline.terms? := by
  cases e with
  | post p =>
    have kept := congrArg timeline (post_keeps s p).1
    exact congrArg Timeline.terms? kept
  | requests requests shutAfter => exact (handleAll_keeps s requests shutAfter).2
  | knock => exact s.timeline.terms?_request .connections _
  | greet granted greeting =>
    exact congrArg Timeline.terms? (settleConnection_keeps s granted greeting).2
  | pause ms => exact s.timeline.terms?_sleep ms
  | shut => exact s.timeline.denyAll.terms?_settle.trans s.timeline.terms?_denyAll

theorem happen_running (s : Server) {e : Event} (other : ∀ p, e ≠ .post p) :
    (s.happen e).running = s.running := by
  cases e with
  | post p => exact absurd rfl (other p)
  | requests requests shutAfter => exact (handleAll_keeps s requests shutAfter).1
  | greet granted greeting => exact (settleConnection_keeps s granted greeting).1
  | knock | pause | shut => rfl

theorem after_terms? (s : Server) (events : List Event) :
    (s.after events).timeline.terms? = s.timeline.terms? := by
  induction events generalizing s with
  | nil => rfl
  | cons e rest ih => exact (ih (s.happen e)).trans (happen_terms? s e)

/-! ### The settings that stand -/

/-- The settings of the last reload that was accepted, or of the start if none was. -/
inductive Stands (names : List (Option (List String))) (s₀ : Settings) :
    List Event → Settings → Prop where
  | start : Stands names s₀ [] s₀
  | accepted {events : List Event} {s s' : Settings} {p : Post} {t : Tables}
      (before : Stands names s₀ events s) (accepted : p.Accepted names s' t) :
      Stands names s₀ (events ++ [.post p]) s'
  | refused {events : List Event} {s : Settings} {p : Post} (before : Stands names s₀ events s)
      (refused : ∀ s' t, ¬ p.Accepted names s' t) : Stands names s₀ (events ++ [.post p]) s
  | other {events : List Event} {s : Settings} {e : Event} (before : Stands names s₀ events s)
      (other : ∀ p, e ≠ .post p) : Stands names s₀ (events ++ [e]) s

theorem exists_stands (names : List (Option (List String))) (s₀ : Settings) (events : List Event) :
    ∃ s, Stands names s₀ events s := by
  induction events using List.reverseRecOn with
  | nil => exact ⟨s₀, .start⟩
  | append_singleton earlier e ih =>
    obtain ⟨s, before⟩ := ih
    by_cases reload : ∃ p, e = .post p
    · obtain ⟨p, rfl⟩ := reload
      by_cases through : ∃ s' t, p.Accepted names s' t
      · obtain ⟨s', t, accepted⟩ := through
        exact ⟨s', .accepted before accepted⟩
      · exact ⟨s, .refused before fun s' t accepted => through ⟨s', t, accepted⟩⟩
    · exact ⟨s, .other before fun p same => reload ⟨p, same⟩⟩

section

variable {names : List (Option (List String))} {s₀ s : Settings} {events : List Event}
  (stands : Stands names s₀ events s)
include stands

/-- The settings that stand are shown, and the listeners keep their names. -/
theorem Stands.shown {server : Server} (named : server.running.names = names)
    (begun : server.running.settings = s₀) :
    (server.after events).running.names = names ∧
      (server.after events).running.settings = s := by
  induction stands with
  | start => exact ⟨named, begun⟩
  | accepted _ accepted ih =>
    rw [after_concat]
    obtain ⟨-, carries⟩ := post_of_accepted (ih.1 ▸ accepted)
    exact ⟨carries.names_eq.trans ih.1, carries.settings⟩
  | refused _ refused ih =>
    rw [after_concat, happen, (post_of_refused (ih.1 ▸ refused)).2]
    exact ih
  | other _ other ih =>
    rw [after_concat, happen_running _ other]
    exact ih

theorem Stands.loaded {file₀ : SettingsFile} (read : file₀.load = .ok s₀) :
    ∃ file : SettingsFile, file.load = .ok s := by
  induction stands with
  | start => exact ⟨file₀, read⟩
  | accepted _ accepted _ => exact ⟨_, accepted.read⟩
  | refused _ _ ih | other _ _ ih => exact ih

end

/-! ### The pages -/

/-- What a record says under a name, unless it says that there is nothing. -/
def said? (v : Value) (name : String) : Option Value :=
  match v.field? name with
  | none | some .null => none
  | some v => some v

structure SameBucket (configured running : Value) : Prop where
  burst : ∃ x, said? configured "max_burst_size" = some (.float x) ∧
    said? running "capacity" = some (.float x)
  rate : ∃ text r, said? configured "flow_rate" = some (.text text) ∧ FlowRate.parse text = .ok r ∧
    said? running "flow_rate_per_sec" = some (.float r.perSecond)
  queue : said? configured "max_queue_size" = said? running "max_waiters"
  partly : said? configured "partial_tokens" = said? running "partial_tokens"

/-- The settings have the same buckets as run, as they are shown. -/
def SameLimits (config limits : Value) : Prop :=
  ∃ configured, said? config "rate_limit" = some configured ∧
    ∀ name, Option.Rel SameBucket (said? configured name) (said? limits name)

def shownTerms (t : Terms Float) : Float × Float × Option Nat × Bool :=
  (t.capacity, t.rate, t.maxWaiters, t.partialGrants)

theorem sameBucket_iff {c : BucketSettings Float} {b : Snapshot Float}
    (spelled : Settings.Spelled c.flowRate) :
    SameBucket (Settings.Write.bucket c) (bucketValue b) ↔
      shownTerms c.asked = shownTerms b.terms := by
  have configured : said? (Settings.Write.bucket c) "max_queue_size" = c.maxQueue.map .nat := by
    cases queue : c.maxQueue <;> simp only [Settings.Write.bucket, queue] <;> rfl
  have running : said? (bucketValue b) "max_waiters" = b.terms.maxWaiters.map .nat := by
    cases queue : b.terms.maxWaiters <;> simp only [bucketValue, queue] <;> rfl
  have injective : Function.Injective Value.nat := fun _ _ same =>
    Int.ofNat.inj (Value.int.inj same)
  constructor
  · rintro ⟨⟨x, burst, capacity⟩, ⟨text, r, rate, parsed, perSecond⟩, queue, partly⟩
    cases burst
    cases rate
    cases Except.ok.inj (spelled.symm.trans parsed)
    rw [configured, running] at queue
    have capacity : b.terms.capacity = c.maxBurst := Value.float.inj (Option.some.inj capacity)
    have rate : b.terms.rate = c.flowRate.perSecond := Value.float.inj (Option.some.inj perSecond)
    have queue : c.maxQueue = b.terms.maxWaiters := Option.map_injective injective queue
    have partly : c.partialGrants = b.terms.partialGrants := Value.bool.inj (Option.some.inj partly)
    rw [shownTerms, shownTerms, capacity, rate, ← queue, ← partly]
    rfl
  · intro same
    obtain ⟨capacity, rate, queue, partly⟩ : c.maxBurst = b.terms.capacity ∧
        c.flowRate.perSecond = b.terms.rate ∧ c.maxQueue = b.terms.maxWaiters ∧
          c.partialGrants = b.terms.partialGrants := by
      simpa only [shownTerms, BucketSettings.asked, Prod.mk.injEq] using same
    refine ⟨⟨c.maxBurst, rfl, ?_⟩, ⟨c.flowRate.text, c.flowRate, rfl, spelled, ?_⟩, ?_, ?_⟩
    · rw [capacity]
      rfl
    · rw [rate]
      rfl
    · rw [configured, running, queue]
    · show some (Value.bool c.partialGrants) = _
      rw [partly]
      rfl

/-! Both pages have the buckets under the names of the gates. -/

section

variable (f : Gate → Option Value)

theorem lookup_gates (gate : Gate) :
    (Gate.all.filterMap fun g => (f g).map (g.name, ·)).lookup gate.name = f gate := by
  cases connections : f .connections <;> cases requests : f .requests <;>
    cases data : f .data <;> cases gate <;> simp [Gate.all, Gate.name, List.lookup_cons, *]

theorem lookup_gates_of_ne {name : String} (other : ∀ gate : Gate, name ≠ gate.name) :
    (Gate.all.filterMap fun g => (f g).map (g.name, ·)).lookup name = none := by
  rw [List.lookup_eq_none_iff]
  intro pair mem
  obtain ⟨gate, -, found⟩ := List.mem_filterMap.1 mem
  obtain ⟨v, -, rfl⟩ := Option.map_eq_some_iff.1 found
  simpa using other gate

end

theorem said?_limits (l : LimitSettings Float) (gate : Gate) :
    said? (Settings.Write.limits l) gate.name = (l.bucket? gate).map Settings.Write.bucket := by
  have field : (Settings.Write.limits l).field? gate.name =
      some (Settings.Write.optional Settings.Write.bucket (l.bucket? gate)) :=
    lookup_gates (fun gate => some (Settings.Write.optional Settings.Write.bucket (l.bucket? gate)))
      gate
  rw [said?, field]
  cases l.bucket? gate <;> rfl

theorem said?_limits_of_ne (l : LimitSettings Float) {name : String}
    (other : ∀ gate : Gate, name ≠ gate.name) : said? (Settings.Write.limits l) name = none := by
  have field : (Settings.Write.limits l).field? name = none :=
    lookup_gates_of_ne
      (fun gate => some (Settings.Write.optional Settings.Write.bucket (l.bucket? gate))) other
  rw [said?, field]

/-- The page with the buckets, gate by gate. -/
theorem limitsValue_eq (t : Timeline) : limitsValue t.snapshots =
    .record (Gate.all.filterMap fun gate =>
      ((t.limiter.bucket? gate).map fun b => bucketValue (b.snapshot t.instant)).map
        (gate.name, ·)) := by
  unfold limitsValue Timeline.snapshots Limiter.snapshots
  rw [List.map_filterMap]
  simp only [Option.map_map]
  rfl

theorem said?_limitsValue (t : Timeline) (gate : Gate) :
    said? (limitsValue t.snapshots) gate.name =
      (t.limiter.bucket? gate).map fun b => bucketValue (b.snapshot t.instant) := by
  rw [limitsValue_eq, said?, Value.field?, lookup_gates]
  cases t.limiter.bucket? gate <;> rfl

theorem said?_limitsValue_of_ne (t : Timeline) {name : String}
    (other : ∀ gate : Gate, name ≠ gate.name) : said? (limitsValue t.snapshots) name = none := by
  rw [limitsValue_eq, said?, Value.field?, lookup_gates_of_ne _ other]

/-- The pages agree if what is shown of the terms is what the settings ask for. -/
theorem sameLimits_iff {s : Settings} {t : Timeline}
    (spelled : ∀ gate c, s.limits.bucket? gate = some c → Settings.Spelled c.flowRate) :
    SameLimits s.toValue (limitsValue t.snapshots) ↔ ∀ gate,
      (s.limits.bucket? gate).map (shownTerms ·.asked) = (t.terms? gate).map shownTerms := by
  have there : said? s.toValue "rate_limit" = some (Settings.Write.limits s.limits) := rfl
  have one (gate : Gate) :
      Option.Rel SameBucket (said? (Settings.Write.limits s.limits) gate.name)
        (said? (limitsValue t.snapshots) gate.name) ↔
      (s.limits.bucket? gate).map (shownTerms ·.asked) = (t.terms? gate).map shownTerms := by
    rw [said?_limits, said?_limitsValue, Timeline.terms?, Limiter.terms?]
    cases configured : s.limits.bucket? gate with
    | none => cases t.limiter.bucket? gate <;> simp
    | some c =>
      cases t.limiter.bucket? gate with
      | none => simp
      | some b =>
        have same : SameBucket (Settings.Write.bucket c) (bucketValue (b.snapshot t.instant)) ↔
            shownTerms c.asked = shownTerms b.terms := sameBucket_iff (spelled gate c configured)
        simpa using same
  constructor
  · rintro ⟨configured, found, same⟩ gate
    cases Option.some.inj (there.symm.trans found)
    exact (one gate).1 (same gate.name)
  · intro same
    refine ⟨_, there, fun name => ?_⟩
    by_cases named : ∃ gate : Gate, name = gate.name
    · obtain ⟨gate, rfl⟩ := named
      exact (one gate).2 (same gate)
    · have other : ∀ gate : Gate, name ≠ gate.name := fun gate same => named ⟨gate, same⟩
      rw [said?_limits_of_ne _ other, said?_limitsValue_of_ne _ other]
      exact .none

/-! ### What is told -/

def getting (r : Request) (path : String) : Request :=
  { r with method := "GET", uri := { r.uri with path } }

section

variable (files : FileStore) (source : Option SettingsFile) (s : Server) (r : Request)

theorem operate_config : s.operate files source (getting r "/api/config") =
    ((PageAnswer.ofValue 200 s.running.settings.toValue).addHeaders sharing, s) := rfl

theorem operate_limits : s.operate files source (getting r "/api/limits") =
    ((PageAnswer.ofValue 200 (limitsValue s.timeline.snapshots)).addHeaders sharing, s) := rfl

end

/-- Two settings of limits that ask for the same, as far as it is shown. -/
def Alike (l l₀ : LimitSettings Float) : Prop :=
  ∀ gate, (l.bucket? gate).map (shownTerms ·.asked) = (l₀.bucket? gate).map (shownTerms ·.asked)

theorem spelled_of_file {file : SettingsFile} {s : Settings} (read : file.load = .ok s)
    {gate : Gate} {c : BucketSettings Float} (there : s.limits.bucket? gate = some c) :
    Settings.Spelled c.flowRate := by
  cases file with
  | missing | garbled => cases read
  | holding v =>
    rw [SettingsFile.load] at read
    split at read
    · cases read
    · next loaded =>
      cases read
      exact Settings.spelled_of_load loaded there

/-- A server shows the limits on which it was started. -/
theorem start_terms? {files : FileStore} {s₀ : Settings} {server : Server}
    (started : start files s₀ = .ok server) (gate : Gate) :
    server.timeline.terms? gate = (s₀.limits.bucket? gate).map (·.asked) := by
  unfold start at started
  split at started
  · cases started
  · next timeline created =>
    split at started
    · cases started
    · cases started
      exact Timeline.create_terms? created gate

theorem sameLimits_iff_alike {file : SettingsFile} {files : FileStore} {s₀ s : Settings}
    {server : Server} (started : start files s₀ = .ok server) (events : List Event)
    (read : file.load = .ok s) :
    SameLimits s.toValue (limitsValue (server.after events).timeline.snapshots) ↔
      Alike s.limits s₀.limits := by
  rw [sameLimits_iff fun gate c => spelled_of_file read]
  refine forall_congr' fun gate => ?_
  rw [after_terms?, start_terms? started, Option.map_map]
  rfl

/-- Whatever has happened to a server since it was started from a file, the page with the settings
shows those that stand, and the page with the buckets shows the limits that the server was started
with. The two agree about the limits exactly if the settings that stand ask for the same limits as
those of the start. -/
theorem limits_reported {file₀ : SettingsFile} {files : FileStore} {s₀ : Settings} {server : Server}
    (read : file₀.load = .ok s₀) (started : start files s₀ = .ok server) (events : List Event) :
    let now := server.after events
    let limits := limitsValue now.timeline.snapshots
    (∀ files source r, now.operate files source (getting r "/api/limits") =
        ((PageAnswer.ofValue 200 limits).addHeaders sharing, now)) ∧
      SameLimits s₀.toValue limits ∧ (∃ s, Stands (Running.namesOf s₀) s₀ events s) ∧
      ∀ s, Stands (Running.namesOf s₀) s₀ events s →
        (∀ files source r, now.operate files source (getting r "/api/config") =
          ((PageAnswer.ofValue 200 s.toValue).addHeaders sharing, now)) ∧
        (SameLimits s.toValue limits ↔ Alike s.limits s₀.limits) := by
  intro now limits
  refine ⟨fun files source r => operate_limits files source now r,
    (sameLimits_iff_alike started events read).2 fun _ => rfl, exists_stands _ s₀ events, ?_⟩
  intro s stands
  obtain ⟨t₀, -, carries⟩ := Running.carries_of_start started
  obtain ⟨file, read'⟩ := stands.loaded read
  refine ⟨fun files source r => ?_, sameLimits_iff_alike started events read'⟩
  rw [operate_config, (stands.shown carries.names_eq carries.settings).2]

/-- A reload brings a host and another spelling of the same rate. The next one finds no file. -/
theorem limits_reported_respelled :
    let files : FileStore := fun _ => .error "No such file or directory (os error 2)"
    let settings (hosts : List Value) (rate : String) : Value := .record
      [("server", .record [("listen", .list [.record [("addr", .text "127.0.0.1:80")]])]),
        ("hosts", .list hosts),
        ("rate_limit", .record [("requests", .record
          [("flow_rate", .text rate), ("max_burst_size", .int 5), ("max_queue_size", .int 2)])])]
    let host : Value := .record [("names", .list [.text "a.example.com"])]
    let request : Request := ⟨"GET", ⟨"", "/", none⟩, [], .v4 [127, 0, 0, 1] 50000, false⟩
    let events : List Event :=
      [.post ⟨files, .holding (settings [host] "60/min"), request⟩, .requests [request] none,
        .post ⟨files, .missing, request⟩]
    ∃ s₀ server s, Settings.load (settings [] "1/sec") = .ok s₀ ∧ start files s₀ = .ok server ∧
      Settings.load (settings [host] "60/min") = .ok s ∧ Stands (Running.namesOf s₀) s₀ events s ∧
      SameLimits s.toValue (limitsValue (server.after events).timeline.snapshots) := by
  intro files settings host request events
  obtain ⟨s₀, server, s, t, loaded₀, started, loaded, -, accepted⟩ :=
    exists_takenOver request (show takesOver files (settings [] "1/sec")
      (settings [host] "60/min") = true by decide +kernel)
  have same : (Settings.load (settings [] "1/sec")).toOption.all (fun s₀ =>
      (Settings.load (settings [host] "60/min")).toOption.all fun s => Gate.all.all fun gate =>
        decide ((s.limits.bucket? gate).map (shownTerms ·.asked) =
          (s₀.limits.bucket? gate).map (shownTerms ·.asked))) = true := by decide +kernel
  rw [loaded₀, loaded] at same
  have alike : Alike s.limits s₀.limits := fun gate =>
    of_decide_eq_true (List.all_eq_true.1 same gate (by cases gate <;> decide))
  have stands : Stands (Running.namesOf s₀) s₀ events s :=
    ((Stands.start.accepted accepted).other (e := .requests [request] none) (by simp)).refused
      fun s' t accepted => by cases accepted.read
  have read₀ : (SettingsFile.holding (settings [] "1/sec")).load = .ok s₀ := by
    rw [SettingsFile.load, loaded₀]
  obtain ⟨-, -, -, each⟩ := limits_reported read₀ started events
  exact ⟨s₀, server, s, loaded₀, started, loaded, stands, (each s stands).2.2 alike⟩

/-- A reload doubles a bucket. From then on a bucket of ten is shown among the settings, and one of
five runs. -/
theorem limits_reported_doubled :
    let files : FileStore := fun _ => .error "No such file or directory (os error 2)"
    let settings (burst : Int) : Value := .record
      [("server", .record [("listen", .list [.record [("addr", .text "127.0.0.1:80")]])]),
        ("rate_limit", .record [("requests", .record
          [("flow_rate", .text "1/sec"), ("max_burst_size", .int burst)])])]
    let request : Request := ⟨"GET", ⟨"", "/", none⟩, [], .v4 [127, 0, 0, 1] 50000, false⟩
    let p : Post := ⟨files, .holding (settings 10), request⟩
    let page (now : Server) (path : String) : PageAnswer :=
      (now.operate files none (getting request path)).1
    ∃ s₀ server, Settings.load (settings 5) = .ok s₀ ∧ start files s₀ = .ok server ∧
      let now := server.after [.post p]
      (server.post p).1.status = 200 ∧ ∃ config limits,
        (page now "/api/config").content = .json config ∧
          (page now "/api/limits").content = .json limits ∧ ¬ SameLimits config limits ∧
          (now.running.settings.limits.bucket? .requests).map (·.maxBurst) = some 10 ∧
          (now.timeline.terms? .requests).map (·.capacity) = some 5 := by
  intro files settings request p page
  obtain ⟨s₀, server, s, t, loaded₀, started, loaded, named, accepted⟩ :
      ∃ s₀ server s t, Settings.load (settings 5) = .ok s₀ ∧ start files s₀ = .ok server ∧
        Settings.load (settings 10) = .ok s ∧ server.running.names = Running.namesOf s₀ ∧
        p.Accepted (Running.namesOf s₀) s t := exists_takenOver request (by decide +kernel)
  have five : (Settings.load (settings 5)).toOption.bind (fun s =>
      (s.limits.bucket? .requests).map (·.maxBurst)) = some 5 := by decide +kernel
  have ten : (Settings.load (settings 10)).toOption.bind (fun s =>
      (s.limits.bucket? .requests).map (·.maxBurst)) = some 10 := by decide +kernel
  rw [loaded₀] at five
  rw [loaded] at ten
  obtain ⟨status, carries⟩ := post_of_accepted (named ▸ accepted)
  have shown : (server.after [.post p]).running.settings = s := carries.settings
  have runs : ((server.after [.post p]).timeline.terms? .requests).map (·.capacity) = some 5 := by
    rw [after_terms?, start_terms? started, Option.map_map]
    exact five
  refine ⟨s₀, server, loaded₀, started, status, _, _, rfl, rfl, fun same => ?_, ?_, runs⟩
  · rw [shown, sameLimits_iff_alike started _ accepted.read] at same
    have bursts := congrArg (Option.map Prod.fst) (same .requests)
    rw [Option.map_map, Option.map_map] at bursts
    have apart : (some 10 : Option Float) ≠ some 5 := by decide +kernel
    exact apart (ten.symm.trans (bursts.trans five))
  · rw [shown]
    exact ten

end Turnstile.Server
