import Turnstile.Proofs.Routing.HostText

namespace Turnstile.Routing

open Text (pieces glue)

namespace Hostname

/-- A key that a pattern can have: labels for segments, and none only under the lone star. -/
def Named (key : Key) : Prop :=
  (∀ s ∈ key.segments, IsLabel s) ∧ (key.wildcard = false → key.segments ≠ [])

theorem named_everything : Named .everything := ⟨nofun, nofun⟩

/-- Above a name that a pattern can have are wildcards that a pattern can have. -/
theorem Named.above {front segments : List String} (h : Named ⟨segments, false⟩)
    (begins : front <+: segments) : Named ⟨front, true⟩ :=
  ⟨fun s hs => h.1 s (begins.subset hs), nofun⟩

theorem toList_hostText (k : Key) :
    k.hostText.toList = glue '.' ((k.parts .hostname).map String.toList) := by
  simp [Key.hostText, Key.render, Key.Style.hostname, Text.intercalate_eq_glue]

theorem toList_hostText_exact (segments : List String) :
    (⟨segments, false⟩ : Key).hostText.toList = dotted segments := by
  simp [toList_hostText, Key.parts, Key.Style.hostname, dotted]

theorem toList_hostText_wildcard {segments : List String} (nonempty : segments ≠ []) :
    (⟨segments, true⟩ : Key).hostText.toList = '*' :: '.' :: dotted segments := by
  have parts : (⟨segments, true⟩ : Key).parts .hostname = "*" :: segments.reverse := by
    simp [Key.parts, Key.Style.hostname]
  obtain ⟨last, rest, written⟩ := List.exists_cons_of_ne_nil (List.reverse_ne_nil_iff.2 nonempty)
  rw [toList_hostText, parts, dotted, written]
  rfl

theorem hostText_of_wildcard {segments : List String} {name : String} (nonempty : segments ≠ [])
    (spelled : name.toList = dotted segments) :
    (⟨segments, true⟩ : Key).hostText = "*." ++ name := by
  rw [← String.toList_inj, toList_hostText_wildcard nonempty, ← spelled, String.toList_append]
  rfl

/-- A key is read from its own text. -/
theorem parse_hostText {key : Key} (named : Named key) : parse key.hostText true = .ok key := by
  obtain ⟨segments, wildcard⟩ := key
  obtain ⟨labels, nonempty⟩ := named
  rw [parse_eq_ok_iff, readPattern_eq_ok_iff]
  cases wildcard with
  | false =>
    rw [toList_hostText_exact]
    exact .inl ⟨readName_dotted (nonempty rfl) labels, rfl⟩
  | true =>
    by_cases nonempty : segments = []
    · subst nonempty
      exact .inr ⟨rfl, .inl ⟨.inl rfl, rfl⟩⟩
    · rw [toList_hostText_wildcard nonempty]
      exact .inr ⟨rfl, .inr ⟨_, rfl, readName_dotted nonempty labels, rfl⟩⟩

/-- Different keys have different texts. -/
theorem hostText_inj {key key' : Key} (named : Named key) (named' : Named key') :
    key.hostText = key'.hostText ↔ key = key' := by
  constructor
  · intro same
    have read := parse_hostText named
    rw [same, parse_hostText named'] at read
    exact (Except.ok.inj read).symm
  · exact congrArg Key.hostText

/-- A name in lower case without one trailing dot. -/
def presented (host : String) : String :=
  String.ofList (dropTrailingDot (host.toList.map Char.toLower))

/-- A label as it may be written: 1 to 63 letters, digits and hyphens, with no hyphen at either
end. -/
structure WellFormed (label : List Char) : Prop where
  size : 1 ≤ label.length ∧ label.length ≤ 63
  chars : ∀ c ∈ label, c.isAlphanum ∨ c = '-'
  ends : label.head? ≠ some '-' ∧ label.getLast? ≠ some '-'

/-- Labels with dots between them. -/
def IsHostname (name : String) : Prop :=
  ∃ labels, labels ≠ [] ∧ (∀ l ∈ labels, WellFormed l) ∧ glue '.' labels = name.toList

theorem byteSize_of_labelChars {label : List Char} (chars : ∀ c ∈ label, isLabelChar c) :
    byteSize label = label.length := by
  induction label with
  | nil => rfl
  | cons c rest ih =>
    obtain ⟨first, others⟩ := List.forall_mem_cons.1 chars
    have small : c.toNat ≤ 127 := by
      rw [isLabelChar_iff] at first
      omega
    rw [byteSize, ih others, Char.utf8Size_eq_one_iff.2 small, List.length_cons, Nat.add_comm]

theorem labelFault?_eq_none_iff_wellFormed {label : List Char} :
    labelFault? label = none ↔ WellFormed label := by
  have chars_iff : (∀ c ∈ label, isLabelChar c) ↔ ∀ c ∈ label, c.isAlphanum ∨ c = '-' := by
    simp [isLabelChar]
  rw [labelFault?_eq_none_iff, ← List.length_pos_iff]
  constructor
  · rintro ⟨nonempty, short, chars, ends⟩
    rw [byteSize_of_labelChars chars] at short
    exact ⟨⟨nonempty, short⟩, chars_iff.1 chars, ends⟩
  · rintro ⟨⟨nonempty, short⟩, chars, ends⟩
    have chars := chars_iff.2 chars
    rw [← byteSize_of_labelChars chars] at short
    exact ⟨nonempty, short, chars, ends⟩

theorem isHostname_iff {name : String} :
    IsHostname name ↔ ∃ segments, readName name.toList = .ok segments := by
  constructor
  · rintro ⟨labels, nonempty, good, written⟩
    have faultless : ∀ l ∈ labels, labelFault? l = none :=
      fun l hl => labelFault?_eq_none_iff_wellFormed.2 (good l hl)
    have cut : pieces '.' name.toList = labels := by
      rw [← written]
      apply Text.pieces_glue nonempty
      intro l hl dot
      exact absurd ((labelFault?_eq_none_iff.1 (faultless l hl)).2.2.1 '.' dot) (by decide)
    exact ⟨_, readName_eq_ok_iff.2 ⟨cut ▸ faultless, rfl⟩⟩
  · rintro ⟨segments, read⟩
    have faultless := (readName_eq_ok_iff.1 read).1
    exact ⟨pieces '.' name.toList, Text.pieces_ne_nil _ _,
      fun l hl => labelFault?_eq_none_iff_wellFormed.1 (faultless l hl), Text.glue_pieces _ _⟩

/-- In lower case a name is spelled by what is read from it. -/
theorem readName_eq_ok_iff_dotted {name : List Char} (lower : name.map Char.toLower = name)
    {segments : List String} :
    readName name = .ok segments ↔
      segments ≠ [] ∧ (∀ s ∈ segments, IsLabel s) ∧ dotted segments = name := by
  constructor
  · intro read
    obtain ⟨nonempty, labels⟩ := labels_of_readName read
    refine ⟨nonempty, labels, ?_⟩
    obtain ⟨-, rfl⟩ := readName_eq_ok_iff.1 read
    have spelled : (pieces '.' name).map (String.toList ∘ foldLabel) = pieces '.' name := by
      rw [← lower, pieces_map_toLower, List.map_map]
      apply List.map_congr_left
      intro l _
      simp only [Function.comp_apply, foldLabel_map_toLower]
      rw [foldLabel, String.toList_ofList]
    rw [dotted, List.reverse_reverse, List.map_map, spelled, Text.glue_pieces]
  · rintro ⟨nonempty, labels, rfl⟩
    exact readName_dotted nonempty labels

theorem dropTrailingDot_map_toLower (name : List Char) :
    dropTrailingDot (name.map Char.toLower) = (dropTrailingDot name).map Char.toLower := by
  have dot : (name.map Char.toLower).getLast? = some '.' ↔ name.getLast? = some '.' := by
    rw [List.getLast?_map]
    cases name.getLast? with
    | none => simp
    | some c => simp [toLower_eq_iff (d := '.') (by decide)]
  simp only [dropTrailingDot, dot]
  split
  · exact List.map_dropLast.symm
  · rfl

/-- What a client presents has a key if it reads as a name, and is then spelled by its key. -/
theorem candidate?_eq_some_iff_presented {host : String} {key : Key} :
    candidate? host = some key ↔
      key.wildcard = false ∧ readName (presented host).toList = .ok key.segments := by
  rw [presented, String.toList_ofList, dropTrailingDot_map_toLower, readName_map_toLower,
    candidate?_eq_some_iff]
  constructor
  · rintro ⟨-, exact, read⟩
    exact ⟨exact, read⟩
  · rintro ⟨exact, read⟩
    refine ⟨?_, exact, read⟩
    intro empty
    rw [empty] at read
    cases read

theorem isHostname_presented_iff {host : String} :
    IsHostname (presented host) ↔ ∃ key, candidate? host = some key := by
  rw [isHostname_iff]
  constructor
  · rintro ⟨segments, read⟩
    exact ⟨⟨segments, false⟩, candidate?_eq_some_iff_presented.2 ⟨rfl, read⟩⟩
  · rintro ⟨key, found⟩
    exact ⟨key.segments, (candidate?_eq_some_iff_presented.1 found).2⟩

theorem map_toLower_presented (host : String) :
    (presented host).toList.map Char.toLower = (presented host).toList := by
  rw [presented, String.toList_ofList, dropTrailingDot_map_toLower, List.map_map]
  exact List.map_congr_left fun c _ => toLower_toLower c

/-- The key of a name is the one that is shown as the name. -/
theorem candidate?_eq_some_iff_hostText {host : String} {key : Key} :
    candidate? host = some key ↔
      key.wildcard = false ∧ Named key ∧ key.hostText = presented host := by
  obtain ⟨segments, wildcard⟩ := key
  rw [candidate?_eq_some_iff_presented, readName_eq_ok_iff_dotted (map_toLower_presented host)]
  apply and_congr_right
  intro exact
  obtain rfl : wildcard = false := exact
  rw [← toList_hostText_exact, String.toList_inj, ← and_assoc, and_comm (a := segments ≠ [])]
  simp [Named]

/-- A name ends with another after a dot. -/
def Below (name domain : String) : Prop := ∃ front, name = front ++ "." ++ domain

theorem length_dotted_le {front segments : List String} (nonempty : front ≠ [])
    (begins : front <+: segments) : (dotted front).length ≤ (dotted segments).length := by
  obtain ⟨rest, rfl⟩ := begins
  by_cases whole : rest = []
  · simp [whole]
  · rw [dotted_append nonempty whole, List.length_append, List.length_cons]
    omega

/-- What lies above a name is spelled by a proper beginning of its segments. -/
theorem below_iff {segments : List String} (nonempty : segments ≠ [])
    (labels : ∀ s ∈ segments, IsLabel s) {name domain : String}
    (spelled : name.toList = dotted segments) :
    Below name domain ↔
      ∃ front, front ≠ [] ∧ front <+: segments ∧ front.length < segments.length ∧
        domain.toList = dotted front := by
  constructor
  · rintro ⟨front, rfl⟩
    have written : dotted segments = front.toList ++ '.' :: domain.toList := by simp [← spelled]
    have cut := pieces_dotted nonempty labels
    rw [written, Text.pieces_append_cons] at cut
    obtain ⟨before, above, whole, hb, ha⟩ := List.map_eq_append_iff.1 cut.symm
    have hb' : before ≠ [] := by
      rintro rfl
      exact Text.pieces_ne_nil _ _ hb.symm
    have ha' : above ≠ [] := by
      rintro rfl
      exact Text.pieces_ne_nil _ _ ha.symm
    have begins : segments = above.reverse ++ before.reverse := by
      rw [← List.reverse_append, ← whole, List.reverse_reverse]
    refine ⟨above.reverse, by simpa using ha', ⟨_, begins.symm⟩, ?_, ?_⟩
    · have := List.length_pos_iff.2 hb'
      simp [begins, this]
    · rw [dotted, List.reverse_reverse, ha, Text.glue_pieces]
  · rintro ⟨front, hf, ⟨rest, rfl⟩, shorter, hd⟩
    have hr : rest ≠ [] := fun empty => by simp [empty] at shorter
    refine ⟨String.ofList (dotted rest), String.toList_inj.1 ?_⟩
    simp [spelled, dotted_append hf hr, hd]

end Hostname

end Turnstile.Routing
