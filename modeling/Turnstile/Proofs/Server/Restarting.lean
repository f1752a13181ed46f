import Turnstile.Proofs.Server.Reloading
import Turnstile.Proofs.Settings.Loading

namespace Turnstile.Server

open Data Http Metering Site

section

variable {files : FileStore} {s : Settings}

/-- The buckets are set up before the tables. -/
theorem start_eq_error_bucket_iff {e : BucketError Float} :
    start files s = .error (.bucket e) ↔
      Limiter.create s.limits (Nanos.ofMillis 0) = .error e := by
  unfold start Timeline.create
  cases Limiter.create s.limits (Nanos.ofMillis 0) with
  | error e' => simp
  | ok limiter => cases Running.start files s <;> simp

theorem exists_start_iff :
    (∃ server, start files s = .ok server) ↔
      (∃ limiter, Limiter.create s.limits (Nanos.ofMillis 0) = .ok limiter) ∧
        ∃ running, Running.start files s = .ok running := by
  unfold start Timeline.create
  cases Limiter.create s.limits (Nanos.ofMillis 0) with
  | error e => simp
  | ok limiter => cases Running.start files s <;> simp

end

/-- Whether a server can be started from one value and then takes over the settings of another. -/
def takesOver (files : FileStore) (v₀ v : Value) : Bool :=
  (Settings.load v₀).toOption.any fun s₀ => (start files s₀).toOption.isSome &&
    (Settings.load v).toOption.any fun s =>
      (Replacement.ofSettings files (Running.namesOf s₀) s).toOption.isSome

theorem exists_takenOver {files : FileStore} {v₀ v : Value} (request : Request)
    (takes : takesOver files v₀ v = true) :
    ∃ s₀ server s t, Settings.load v₀ = .ok s₀ ∧ start files s₀ = .ok server ∧
      Settings.load v = .ok s ∧ server.running.names = Running.namesOf s₀ ∧
      Post.Accepted ⟨files, .holding v, request⟩ (Running.namesOf s₀) s t := by
  unfold takesOver at takes
  cases loaded₀ : Settings.load v₀ with
  | error refusal =>
    rw [loaded₀] at takes
    cases takes
  | ok s₀ =>
    cases loaded : Settings.load v with
    | error refusal =>
      rw [loaded₀, loaded] at takes
      cases (Bool.and_eq_true_iff.1 takes).2
    | ok s =>
      rw [loaded₀, loaded] at takes
      obtain ⟨begins, works⟩ := Bool.and_eq_true_iff.1 takes
      obtain ⟨server, started⟩ := exists_ok_of_isSome begins
      obtain ⟨made, worked⟩ := exists_ok_of_isSome works
      obtain ⟨t₀, -, carries⟩ := Running.carries_of_start started
      have read : (SettingsFile.holding v).load = .ok s := by rw [SettingsFile.load, loaded]
      obtain ⟨s', t, accepted⟩ := (Post.exists_accepted_iff
        (p := ⟨files, .holding v, request⟩)).2 ⟨s, made, read, worked⟩
      cases Except.ok.inj (read.symm.trans accepted.read)
      exact ⟨s₀, server, s, t, rfl, started, rfl, carries.names_eq, accepted⟩

/-- The buckets of settings that were loaded have positive capacities and rates. They can be set up
exactly if whatever else is given about each fits into it, and otherwise the first thing that does
not is what a server reports that is to start from the settings. A reload does not ask: it puts
settings in place as soon as their tables can be built, which the limits have no part in. -/
theorem start_of_loaded {v : Value} {s : Settings} (loaded : Settings.load v = .ok s) :
    s.limits.Solid ∧
      (∀ (τ : Type) (now : τ),
        ((∃ limiter, Limiter.create s.limits now = .ok limiter) ↔ s.limits.Fits) ∧
          ∀ e, Limiter.create s.limits now = .error e ↔ s.limits.FirstMisfits e) ∧
      (∀ files,
        ((∃ server, start files s = .ok server) ↔
          s.limits.Fits ∧ ∃ running, Running.start files s = .ok running) ∧
        (∀ e, start files s = .error (.bucket e) ↔ s.limits.FirstMisfits e) ∧
        ∀ limits, Tables.build files { s with limits } = Tables.build files s) ∧
      ∀ (server : Server) (p : Post) (t : Tables), p.file = .holding v →
        Tables.build p.files s = .ok t → (∀ n ∈ server.running.names, ∃ table, Gets t n table) →
          (server.post p).1.status = 200 ∧
            (server.post p).2.running.Carries server.running.names s t := by
  have solid := Settings.solid_of_load loaded
  refine ⟨solid, fun τ now => ⟨Limiter.exists_create_iff now solid,
    fun e => Limiter.create_eq_error_iff now solid⟩, fun files => ⟨?_, fun e => ?_, ?_⟩, ?_⟩
  · rw [exists_start_iff, Limiter.exists_create_iff _ solid]
  · rw [start_eq_error_bucket_iff, Limiter.create_eq_error_iff _ solid]
  · exact fun _ => rfl
  · intro server p t holding built parts
    have read : p.file.load = .ok s := by
      rw [holding, SettingsFile.load, loaded]
    exact post_of_accepted ⟨read, built, parts⟩

/-- Buckets that are empty or full at first, or hand out all that they hold at a time. -/
theorem start_of_loaded_edges :
    let bucket (given : List (String × Value)) : Value :=
      .record ([("flow_rate", .text "1/sec"), ("max_burst_size", .int 5)] ++ given)
    let v : Value := .record
      [("server", .record [("listen", .list [.record [("addr", .text "127.0.0.1:80")]])]),
        ("rate_limit", .record
          [("connections", bucket [("initial_volume", .int 0)]),
            ("requests", bucket [("initial_volume", .float 5.0), ("max_queue_size", .int 0)]),
            ("data", bucket [("max_queue_grant_size", .int 5), ("partial_tokens", .bool true)])])]
    ∃ s, Settings.load v = .ok s ∧ s.limits.Solid ∧ s.limits.Fits ∧
      ∀ now : Nanos, ∃ limiter, Limiter.create s.limits now = .ok limiter := by
  intro bucket v
  obtain ⟨s, loaded⟩ : ∃ s, Settings.load v = .ok s := exists_ok_of_isSome (by decide +kernel)
  have begins : (Settings.load v).toOption.all (fun s =>
      (Limiter.create s.limits (Nanos.ofMillis 0)).toOption.isSome) = true := by decide +kernel
  rw [loaded] at begins
  obtain ⟨solid, limiters, -⟩ := start_of_loaded loaded
  have fits := (limiters Nanos _).1.1 (exists_ok_of_isSome begins)
  exact ⟨s, loaded, solid, fits, fun now => (limiters Nanos now).1.2 fits⟩

/-- A bucket is to hold more at first than it can. The server that runs takes over the settings that
none is started from. -/
theorem start_of_loaded_overfull :
    let files : FileStore := fun _ => .error "No such file or directory (os error 2)"
    let settings (given : List (String × Value)) : Value := .record
      [("server", .record [("listen", .list [.record [("addr", .text "127.0.0.1:80")]])]),
        ("rate_limit", .record [("requests", .record
          ([("flow_rate", .text "1/sec"), ("max_burst_size", .int 5)] ++ given))])]
    let overfull := settings [("initial_volume", .int 50)]
    let request : Request := ⟨"POST", ⟨"", "/", none⟩, [], .v4 [127, 0, 0, 1] 50000, false⟩
    let p : Post := ⟨files, .holding overfull, request⟩
    ∃ s₀ server s e, Settings.load (settings []) = .ok s₀ ∧ start files s₀ = .ok server ∧
      Settings.load overfull = .ok s ∧ start files s = .error (.bucket e) ∧
      e.message = "initial volume 50 must be between 0 and the capacity 5" ∧
      (server.post p).1.status = 200 ∧ (server.post p).2.running.settings = s := by
  intro files settings overfull request p
  obtain ⟨s₀, server, s, t, loaded₀, started, loaded, named, accepted⟩ :
      ∃ s₀ server s t, Settings.load (settings []) = .ok s₀ ∧ start files s₀ = .ok server ∧
        Settings.load overfull = .ok s ∧ server.running.names = Running.namesOf s₀ ∧
        p.Accepted (Running.namesOf s₀) s t := exists_takenOver request (by decide +kernel)
  have fails : (Settings.load overfull).toOption.bind (fun s =>
      (errorOf (Limiter.create s.limits (Nanos.ofMillis 0))).map BucketError.message) =
        some "initial volume 50 must be between 0 and the capacity 5" := by decide +kernel
  rw [loaded] at fails
  obtain ⟨e, failed, message⟩ := Option.map_eq_some_iff.1 fails
  obtain ⟨status, after⟩ := post_of_accepted (named ▸ accepted)
  exact ⟨s₀, server, s, e, loaded₀, started, loaded,
    start_eq_error_bucket_iff.2 (errorOf_eq_some_iff.1 failed), message, status, after.settings⟩

end Turnstile.Server
