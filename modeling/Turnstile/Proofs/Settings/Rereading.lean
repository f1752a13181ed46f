import Turnstile.Proofs.Settings.FlowText
import Turnstile.Settings.Checking

/-!
# Settings that are written and read again

What was read from a value can be written, and what is written is read as the same (`Kept`). This
holds part by part: of a list if it holds of the items, of a field that may be `null` if it holds of
what else it may be, and of a field with a default if the default is kept too. A written record has
every field, so the defaults are not asked for a second time. The parts make up the settings
(`kept_settings`), which are therefore written and checked as before (`settings_reread`).
-/

namespace Turnstile.Settings

open Data Metering Read

/-- Whatever can be read with `read?` is read again from what `write` makes of it. -/
def Kept {α : Type} (read? : Value → Option α) (write : α → Value) : Prop :=
  ∀ v a, read? v = some a → read? (write a) = some a

/-! ### Plain values -/

theorem kept_bool : Kept bool? .bool := fun _ _ _ => rfl

theorem kept_text : Kept text? .text := fun _ _ _ => rfl

theorem kept_amount : Kept amount? .float := fun _ _ _ => rfl

theorem kept_natBelow (bound : Nat) : Kept (natBelow? bound) .nat := by
  intro v n read
  unfold natBelow? at read
  split at read
  · next m =>
    split at read
    · next within =>
      cases read
      simp only [Bool.and_eq_true, decide_eq_true_eq] at within
      have again : 0 ≤ (m.toNat : Int) ∧ (m.toNat : Int) < bound := by omega
      unfold natBelow? Value.nat
      simp only [decide_eq_true again.1, decide_eq_true again.2, Bool.and_self, if_true,
        Int.toNat_natCast]
    · cases read
  · cases read

theorem kept_status : Kept status? .nat := kept_natBelow _

theorem kept_count : Kept count? .nat := kept_natBelow _

theorem kept_flowRate : Kept flowRate? fun r => .text r.text := by
  intro v r read
  unfold flowRate? at read
  split at read
  · next text =>
    cases parsed : FlowRate.parse (α := Float) text with
    | error e =>
      rw [parsed] at read
      cases read
    | ok r' =>
      rw [parsed] at read
      cases read
      show (FlowRate.parse (α := Float) r.text).toOption = some r
      rw [FlowRate.parse_text parsed]
      rfl
  · cases read

/-! ### Lists and fields -/

section

variable {α : Type} {read? : Value → Option α} {write : α → Value} (kept : Kept read? write)
include kept

theorem Kept.items {vs : List Value} {as : List α} (read : items? read? vs = some as) :
    items? read? (as.map write) = some as := by
  induction vs generalizing as with
  | nil =>
    cases read
    rfl
  | cons v rest ih =>
    unfold items? at read
    split at read
    · cases read
    · next a first =>
      obtain ⟨more, others, rfl⟩ := Option.map_eq_some_iff.1 read
      rw [List.map_cons, items?, kept v a first, ih others]
      rfl

theorem Kept.list : Kept (list? read?) fun as => .list (as.map write) := by
  intro v as read
  unfold list? at read
  split at read
  · exact kept.items read
  · cases read

end

section

variable {α : Type} {read? : Value → Option α} {write : α → Value} (kept : Kept read? write)
  {fields written : List (String × Value)} {name : String}
include kept

theorem Kept.required {a : α} (read : required? fields name read? = some a)
    (there : written.lookup name = some (write a)) : required? written name read? = some a := by
  obtain ⟨v, -, read⟩ := Option.bind_eq_some_iff.1 read
  rw [required?, there]
  exact kept v a read

theorem Kept.defaulted {default a : α} (read : defaulted? fields name read? default = some a)
    (default_kept : read? (write default) = some default)
    (there : written.lookup name = some (write a)) :
    defaulted? written name read? default = some a := by
  unfold defaulted?
  rw [there]
  unfold defaulted? at read
  split at read
  · cases read
    exact default_kept
  · next v _ => exact kept v a read

/-- Nothing at all is written as `null`, anything else as a value that is not. -/
theorem Kept.optional (solid : ∀ a, write a ≠ .null) {o : Option α}
    (read : optional? fields name read? = some o)
    (there : written.lookup name = some (Write.optional write o)) :
    optional? written name read? = some o := by
  unfold optional?
  rw [there]
  cases o with
  | none => rfl
  | some a =>
    have again : read? (write a) = some a := by
      unfold optional? at read
      split at read
      · cases read
      · cases read
      · next v _ _ =>
        obtain ⟨a', found, same⟩ := Option.map_eq_some_iff.1 read
        cases same
        exact kept v a found
    unfold Write.optional
    split
    · next absent => cases absent
    · next null => exact absurd (Option.some.inj null) (solid a)
    · next found =>
      cases found
      rw [again]
      rfl

end

/-! ### Records -/

theorem kept_record {α : Type} {read? : List (String × Value) → Option α}
    {write : α → List (String × Value)}
    (kept : ∀ fields a, read? fields = some a → read? (write a) = some a) :
    Kept (record? read?) fun a => .record (write a) := by
  intro v a read
  unfold record? at read
  split at read
  · next fields => exact kept fields a read
  · cases read

theorem kept_texts : Kept texts? .texts := kept_text.list

theorem kept_bucket : Kept bucket? Write.bucket := by
  refine kept_record fun fields b read => ?_
  simp only [Option.bind_eq_bind, Option.bind_eq_some_iff] at read
  obtain ⟨flowRate, rate, maxBurst, burst, maxQueue, queue, maxQueueGrant, grant, initialVolume,
    volume, partialGrants, bits, made⟩ := read
  cases made
  rw [kept_flowRate.required rate rfl, kept_amount.required burst rfl,
    kept_count.optional nofun queue rfl, kept_amount.optional nofun grant rfl,
    kept_amount.optional nofun volume rfl, kept_bool.defaulted bits rfl rfl]
  rfl

theorem kept_limits : Kept limits? Write.limits := by
  refine kept_record fun fields l read => ?_
  simp only [Option.bind_eq_bind, Option.bind_eq_some_iff] at read
  obtain ⟨connections, c, requests, r, data, d, made⟩ := read
  cases made
  rw [kept_bucket.optional nofun c rfl, kept_bucket.optional nofun r rfl,
    kept_bucket.optional nofun d rfl]
  rfl

theorem kept_listener : Kept listener? Write.listener := by
  refine kept_record fun fields l read => ?_
  simp only [Option.bind_eq_bind, Option.bind_eq_some_iff] at read
  obtain ⟨address, addr, tls, secure, serverNames, names, made⟩ := read
  cases made
  rw [kept_text.required addr rfl, kept_bool.defaulted secure rfl rfl,
    kept_texts.optional nofun names rfl]
  rfl

theorem kept_admin : Kept admin? Write.admin := by
  refine kept_record fun fields a read => ?_
  simp only [Option.bind_eq_bind, Option.bind_eq_some_iff] at read
  obtain ⟨enabled, on, listen, addr, made⟩ := read
  cases made
  rw [kept_bool.defaulted on rfl rfl, kept_text.defaulted addr rfl rfl]
  rfl

theorem kept_server : Kept server? Write.server := by
  refine kept_record fun fields s read => ?_
  simp only [Option.bind_eq_bind, Option.bind_eq_some_iff] at read
  obtain ⟨listeners, listen, admin, port, made⟩ := read
  cases made
  rw [kept_listener.list.required listen rfl, kept_admin.defaulted port rfl rfl]
  rfl

theorem kept_certificate : Kept certificate? Write.certificate := by
  refine kept_record fun fields c read => ?_
  simp only [Option.bind_eq_bind, Option.bind_eq_some_iff] at read
  obtain ⟨names, patterns, certificate, chain, key, secret, made⟩ := read
  cases made
  rw [kept_texts.required patterns rfl, kept_text.required chain rfl,
    kept_text.required secret rfl]
  rfl

theorem kept_mount : Kept mount? Write.mount := by
  refine kept_record fun fields m read => ?_
  simp only [Option.bind_eq_bind, Option.bind_eq_some_iff] at read
  obtain ⟨path, pattern, application, name, made⟩ := read
  cases made
  rw [kept_text.required pattern rfl, kept_text.required name rfl]
  rfl

theorem kept_host : Kept host? Write.host := by
  refine kept_record fun fields h read => ?_
  simp only [Option.bind_eq_bind, Option.bind_eq_some_iff] at read
  obtain ⟨names, patterns, mounts, mounted, made⟩ := read
  cases made
  rw [kept_texts.required patterns rfl, kept_mount.list.defaulted mounted rfl rfl]
  rfl

section

variable {fields : List (String × Value)}

theorem kind?_text (word : required? fields "kind" text? = some "text") :
    kind? fields = (required? fields "body" text?).bind fun body =>
      (defaulted? fields "status" status? 200).bind fun status =>
        (defaulted? fields "content_type" text? "text/plain; charset=utf-8").bind fun contentType =>
          (defaulted? fields "exact_only" bool? false).bind fun exactOnly =>
            some (.text body status contentType exactOnly) := by
  unfold kind?
  rw [word]
  rfl

theorem kind?_redirect (word : required? fields "kind" text? = some "redirect") :
    kind? fields = (required? fields "target" text?).bind fun target =>
      (defaulted? fields "status" status? 308).bind fun status =>
        some (.redirect target status) := by
  unfold kind?
  rw [word]
  rfl

theorem kind?_echo (word : required? fields "kind" text? = some "echo") :
    kind? fields = some .echo := by
  unfold kind?
  rw [word]
  rfl

/-- The fields of what an application does are read beside its name. -/
theorem kept_kind {kind : ApplicationKind} (name : String) (read : kind? fields = some kind) :
    kind? (("name", .text name) :: Write.kindFields kind) = some kind := by
  simp only [kind?, Option.bind_eq_bind, Option.bind_eq_some_iff] at read
  obtain ⟨word, -, read⟩ := read
  split at read
  · simp only [Option.bind_eq_some_iff] at read
    obtain ⟨body, content, status, code, contentType, type, exactOnly, exact, made⟩ := read
    cases made
    rw [kind?_text rfl, kept_text.required content rfl, kept_status.defaulted code (by decide) rfl,
      kept_text.defaulted type rfl rfl, kept_bool.defaulted exact rfl rfl]
    rfl
  · simp only [Option.bind_eq_some_iff] at read
    obtain ⟨target, destination, status, code, made⟩ := read
    cases made
    rw [kind?_redirect rfl, kept_text.required destination rfl,
      kept_status.defaulted code (by decide) rfl]
    rfl
  · cases read
    exact kind?_echo rfl
  · cases read

end

theorem kept_application : Kept application? Write.application := by
  refine kept_record fun fields a read => ?_
  simp only [Option.bind_eq_bind, Option.bind_eq_some_iff] at read
  obtain ⟨name, own, kind, does, made⟩ := read
  cases made
  rw [kept_text.required own rfl]
  show (kind? _).bind _ = _
  rw [kept_kind name does]
  rfl

theorem kept_settings : Kept ofValue? toValue := by
  refine kept_record fun fields s read => ?_
  simp only [Option.bind_eq_bind, Option.bind_eq_some_iff] at read
  obtain ⟨server, own, certificates, certified, hosts, hosted, applications, applied, limits,
    limited, made⟩ := read
  cases made
  rw [kept_server.required own rfl, kept_certificate.list.defaulted certified rfl rfl,
    kept_host.list.defaulted hosted rfl rfl, kept_application.list.defaulted applied rfl rfl,
    kept_limits.defaulted limited rfl rfl]
  rfl

/-- Settings that were read are read again from what they are written as, and so are written and
checked as before. The text of each flow rate is read as the same rate and the same text, whatever
numbers amounts stand for. -/
theorem settings_reread {v : Value} {s : Settings} (read : ofValue? v = some s) :
    ofValue? s.toValue = some s ∧
      (∀ again, ofValue? s.toValue = some again →
        again.toValue = s.toValue ∧ again.fault? = s.fault?) ∧
      load s.toValue = load v ∧
      ∀ (α : Type) [Quantity α] (text : String) (r : FlowRate α),
        FlowRate.parse text = .ok r → FlowRate.parse r.text = .ok r := by
  have again : ofValue? s.toValue = some s := kept_settings v s read
  refine ⟨again, ?_, ?_, fun _ _ _ _ => FlowRate.parse_text⟩
  · intro s' read'
    cases again.symm.trans read'
    exact ⟨rfl, rfl⟩
  · unfold load
    rw [again, read]

/-- A field that nobody asks for, fields left out and `null`, every kind of application, and blanks
around each part of a flow rate. -/
theorem settings_reread_blanks :
    let page : Value := .record [("name", .text "page"), ("kind", .text "text"), ("body", .text "")]
    let moved : Value :=
      .record [("target", .text "/new/"), ("kind", .text "redirect"), ("name", .text "moved")]
    let echo : Value := .record [("kind", .text "echo"), ("name", .text "echo")]
    let requests : Value := .record
      [("flow_rate", .text " 1.5 / min\n"), ("max_burst_size", .int 3), ("initial_volume", .null)]
    let v : Value := .record
      [("server", .record [("listen", .list [.record [("addr", .text "127.0.0.1:80")]])]),
        ("comment", .text "for now"), ("applications", .list [page, moved, echo]),
        ("rate_limit", .record [("requests", requests), ("data", .null)])]
    ∃ s, ofValue? v = some s ∧ s.limits.requests.map (·.flowRate.text) = some "1.5 / min" ∧
      ofValue? s.toValue = some s ∧ load s.toValue = load v ∧
      ∃ r : FlowRate Float, FlowRate.parse " 1.5 / min\n" = .ok r ∧ r.text = "1.5 / min" ∧
        FlowRate.parse r.text = .ok r := by
  intro page moved echo requests v
  have kept : (ofValue? v).map (fun s => s.limits.requests.map (·.flowRate.text)) =
      some (some "1.5 / min") := by decide +kernel
  have rated : ((FlowRate.parse (α := Float) " 1.5 / min\n").toOption).map (·.text) =
      some "1.5 / min" := by decide +kernel
  obtain ⟨s, read, text⟩ := Option.map_eq_some_iff.1 kept
  obtain ⟨r, found, blanks⟩ := Option.map_eq_some_iff.1 rated
  obtain ⟨again, -, loaded, rates⟩ := settings_reread read
  have parsed : FlowRate.parse (α := Float) " 1.5 / min\n" = .ok r := by
    generalize FlowRate.parse (α := Float) " 1.5 / min\n" = outcome at found
    cases outcome with
    | error e => cases found
    | ok r' => exact congrArg Except.ok (Option.some.inj found)
  exact ⟨s, read, text, again, loaded, r, parsed, blanks, rates Float _ r parsed⟩

end Turnstile.Settings
