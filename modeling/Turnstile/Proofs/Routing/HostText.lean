import Turnstile.Routing.HostTable

namespace Turnstile.Routing.Hostname

open Text (pieces glue)

/-! ### Letters -/

theorem toNat_toLower (c : Char) :
    c.toLower.toNat = if 65 ≤ c.toNat ∧ c.toNat ≤ 90 then c.toNat + 32 else c.toNat := by
  unfold Char.toLower
  split
  · next h =>
    have capital : 65 ≤ c.toNat ∧ c.toNat ≤ 90 := h
    rw [if_pos capital]
    show (c.val + ('a'.val - 'A'.val)).toNat = c.toNat + 32
    rw [UInt32.toNat_add]
    show (c.toNat + 32) % 2 ^ 32 = c.toNat + 32
    omega
  · next h => exact (if_neg h).symm

theorem isAlpha_iff (c : Char) :
    c.isAlpha ↔ (65 ≤ c.toNat ∧ c.toNat ≤ 90) ∨ (97 ≤ c.toNat ∧ c.toNat ≤ 122) := by
  delta Char.isAlpha Char.isUpper Char.isLower
  simp only [Bool.or_eq_true, Bool.and_eq_true, decide_eq_true_eq, ge_iff_le,
    UInt32.le_iff_toNat_le]
  rfl

theorem isLabelChar_iff (c : Char) :
    isLabelChar c ↔ (65 ≤ c.toNat ∧ c.toNat ≤ 90) ∨ (97 ≤ c.toNat ∧ c.toNat ≤ 122) ∨
      (48 ≤ c.toNat ∧ c.toNat ≤ 57) ∨ c.toNat = 45 := by
  have hyphen : c = '-' ↔ c.toNat = 45 := Char.toNat_inj.symm
  delta isLabelChar Char.isAlphanum Char.isDigit
  simp only [Bool.or_eq_true, isAlpha_iff, Bool.and_eq_true, decide_eq_true_eq, beq_iff_eq, hyphen,
    ge_iff_le, UInt32.le_iff_toNat_le, or_assoc]
  rfl

theorem toLower_toLower (c : Char) : c.toLower.toLower = c.toLower := by
  have h := toNat_toLower c
  rw [← Char.toNat_inj, toNat_toLower c.toLower]
  split at h <;> split <;> omega

theorem isLabelChar_toLower (c : Char) : isLabelChar c.toLower = isLabelChar c := by
  rw [Bool.eq_iff_iff, isLabelChar_iff, isLabelChar_iff, toNat_toLower]
  split <;> omega

/-- Nothing but a letter becomes a letter. -/
theorem toLower_eq_iff {c d : Char} (other : ¬ d.isAlpha) : c.toLower = d ↔ c = d := by
  rw [isAlpha_iff] at other
  rw [← Char.toNat_inj, ← Char.toNat_inj, toNat_toLower]
  split <;> omega

theorem utf8Size_toLower (c : Char) : c.toLower.utf8Size = c.utf8Size := by
  have h := toNat_toLower c
  split at h
  · have small {d : Char} (hd : d.toNat ≤ 127) : d.utf8Size = 1 := Char.utf8Size_eq_one_iff.2 hd
    rw [small (by omega), small (by omega)]
  · rw [Char.toNat_inj.1 h]

/-! ### Labels -/

/-- A label as it stands in a key: it breaks no rule and has no capitals. -/
def IsLabel (label : String) : Prop :=
  labelFault? label.toList = none ∧ label.toList.map Char.toLower = label.toList

instance (label : String) : Decidable (IsLabel label) :=
  inferInstanceAs (Decidable (_ ∧ _))

theorem labelFault?_eq_none_iff {label : List Char} :
    labelFault? label = none ↔
      label ≠ [] ∧ byteSize label ≤ maxLabelSize ∧ (∀ c ∈ label, isLabelChar c) ∧
        label.head? ≠ some '-' ∧ label.getLast? ≠ some '-' := by
  unfold labelFault?
  by_cases nonempty : label = []
  · simp [nonempty]
  · by_cases short : byteSize label ≤ maxLabelSize
    · by_cases chars : ∀ c ∈ label, isLabelChar c
      · have : label.all isLabelChar = true := List.all_eq_true.2 chars
        simp only [Nat.not_lt.2 short, this, short, eq_true chars]
        simp [nonempty]
      · have : label.all isLabelChar = false := by simpa using chars
        simp [nonempty, Nat.not_lt.2 short, this, chars]
    · simp [nonempty, Nat.lt_of_not_le short, short]

theorem byteSize_map_toLower (label : List Char) :
    byteSize (label.map Char.toLower) = byteSize label := by
  induction label with
  | nil => rfl
  | cons c rest ih => simp [byteSize, utf8Size_toLower, ih]

/-- Upper and lower case make no difference to what is a label. -/
theorem labelFault?_map_toLower (label : List Char) :
    labelFault? (label.map Char.toLower) = labelFault? label := by
  have hyphen (c : Option Char) : (c.map Char.toLower == some '-') = (c == some '-') := by
    rw [Bool.eq_iff_iff, beq_iff_eq, beq_iff_eq]
    cases c with
    | none => simp
    | some c => simp [toLower_eq_iff (d := '-') (by decide)]
  unfold labelFault?
  rw [List.isEmpty_map, byteSize_map_toLower, List.all_map, List.head?_map, List.getLast?_map,
    hyphen, hyphen, show isLabelChar ∘ Char.toLower = isLabelChar from funext isLabelChar_toLower]

theorem isLabel_foldLabel {label : List Char} (h : labelFault? label = none) :
    IsLabel (foldLabel label) := by
  unfold IsLabel foldLabel
  rw [String.toList_ofList, labelFault?_map_toLower]
  refine ⟨h, ?_⟩
  rw [List.map_map]
  exact List.map_congr_left fun c _ => toLower_toLower c

theorem foldLabel_map_toLower (label : List Char) :
    foldLabel (label.map Char.toLower) = foldLabel label := by
  rw [foldLabel, foldLabel, List.map_map]
  exact congrArg _ (List.map_congr_left fun c _ => toLower_toLower c)

theorem IsLabel.foldLabel_eq {label : String} (h : IsLabel label) :
    foldLabel label.toList = label := by
  rw [foldLabel, h.2, String.ofList_toList]

theorem IsLabel.no_dot {label : String} (h : IsLabel label) : '.' ∉ label.toList := fun hd => by
  have := (labelFault?_eq_none_iff.1 h.1).2.2.1 '.' hd
  exact absurd this (by decide)

/-! ### Names -/

theorem readLabels_eq_ok_iff {written : List (List Char)} {labels : List String} :
    readLabels written = .ok labels ↔
      (∀ label ∈ written, labelFault? label = none) ∧ labels = written.map foldLabel := by
  induction written generalizing labels with
  | nil => simp [readLabels, eq_comm]
  | cons label rest ih =>
    unfold readLabels
    cases hf : labelFault? label with
    | some fault => simp [hf]
    | none =>
      cases hr : readLabels rest with
      | error fault =>
        have bad : ¬ ∀ l ∈ rest, labelFault? l = none := fun good => by
          simpa [hr] using ih.2 ⟨good, rfl⟩
        simp [hf, bad]
      | ok tail =>
        obtain ⟨good, rfl⟩ := ih.1 hr
        simp only [Except.ok.injEq, List.forall_mem_cons, hf, true_and, List.map_cons]
        exact ⟨fun h => ⟨good, h.symm⟩, fun h => h.2.symm⟩

theorem readLabels_map_toLower (written : List (List Char)) :
    readLabels (written.map (List.map Char.toLower)) = readLabels written := by
  induction written with
  | nil => rfl
  | cons label rest ih =>
    rw [List.map_cons, readLabels, readLabels, labelFault?_map_toLower, foldLabel_map_toLower, ih]

theorem pieces_map_toLower (name : List Char) :
    pieces '.' (name.map Char.toLower) = (pieces '.' name).map (List.map Char.toLower) :=
  Text.pieces_map (fun _ => toLower_eq_iff (by decide)) name

/-- Names are read alike in upper and lower case. -/
theorem readName_map_toLower (name : List Char) :
    readName (name.map Char.toLower) = readName name := by
  rw [readName, pieces_map_toLower, readLabels_map_toLower, readName]

theorem readName_eq_ok_iff {name : List Char} {segments : List String} :
    readName name = .ok segments ↔
      (∀ label ∈ pieces '.' name, labelFault? label = none) ∧
        segments = ((pieces '.' name).map foldLabel).reverse := by
  unfold readName
  cases hr : readLabels (pieces '.' name) with
  | error fault =>
    have bad : ¬ ∀ label ∈ pieces '.' name, labelFault? label = none := fun good => by
      have := readLabels_eq_ok_iff.2 ⟨good, rfl⟩
      simp [hr] at this
    simp [bad]
  | ok labels =>
    obtain ⟨good, rfl⟩ := readLabels_eq_ok_iff.1 hr
    simp only [Except.ok.injEq]
    exact ⟨fun h => ⟨good, h.symm⟩, fun h => h.2.symm⟩

section OneName

variable {name : List Char} {segments : List String} (read : readName name = .ok segments)
include read

/-- A name has at least one label. -/
theorem labels_of_readName : segments ≠ [] ∧ ∀ s ∈ segments, IsLabel s := by
  obtain ⟨good, rfl⟩ := readName_eq_ok_iff.1 read
  refine ⟨by simp [Text.pieces_ne_nil], fun s hs => ?_⟩
  obtain ⟨label, hl, rfl⟩ := List.mem_map.1 (List.mem_reverse.1 hs)
  exact isLabel_foldLabel (good label hl)

theorem ne_nil_of_readName : name ≠ [] := by
  rintro rfl
  cases read

theorem nil_not_mem_pieces_of_readName : [] ∉ pieces '.' name := by
  intro empty
  have good := (readName_eq_ok_iff.1 read).1 [] empty
  exact (labelFault?_eq_none_iff.1 good).1 rfl

/-- A name does not end in a dot, since its last label is not empty. -/
theorem dropTrailingDot_of_readName : dropTrailingDot name = name := by
  apply if_neg
  intro last
  obtain ⟨front, rfl⟩ := List.getLast?_eq_some_iff.1 last
  apply nil_not_mem_pieces_of_readName read
  rw [Text.pieces_append_cons]
  exact List.mem_append_right _ (List.mem_singleton_self [])

/-- A name is made of the characters of labels and of dots. -/
theorem char_of_readName {c : Char} (mem : c ∈ name) : c = '.' ∨ isLabelChar c := by
  rw [← Text.glue_pieces '.' name] at mem
  rcases Text.eq_or_mem_of_mem_glue mem with dot | ⟨label, hl, mem⟩
  · exact .inl dot
  · have good := (readName_eq_ok_iff.1 read).1 label hl
    exact .inr ((labelFault?_eq_none_iff.1 good).2.2.1 c mem)

theorem star_not_mem_of_readName : '*' ∉ name := fun star =>
  absurd (char_of_readName read star) (by decide)

end OneName

/-! ### Patterns -/

theorem splitStar_eq {pattern name : List Char} {star : Bool}
    (h : splitStar pattern = (star, name)) :
    star = false ∧ name = pattern ∨
      star = true ∧ (pattern = ['*'] ∧ name = [] ∨ pattern = '*' :: '.' :: name) := by
  unfold splitStar at h
  split at h
  · obtain ⟨rfl, rfl⟩ := Prod.mk.inj h
    exact .inr ⟨rfl, .inl ⟨rfl, rfl⟩⟩
  · obtain ⟨rfl, rfl⟩ := Prod.mk.inj h
    exact .inr ⟨rfl, .inr rfl⟩
  · obtain ⟨rfl, rfl⟩ := Prod.mk.inj h
    exact .inl ⟨rfl, rfl⟩

theorem splitStar_of_not_mem {name : List Char} (h : '*' ∉ name) :
    splitStar name = (false, name) := by
  unfold splitStar
  split
  · simp at h
  · simp at h
  · rfl

/-- A pattern is a name or, where wildcards are allowed, a star with a dot and a name after it, or a
star with nothing or nothing but a dot after it. -/
theorem readPattern_eq_ok_iff {pattern : List Char} {allowWildcard : Bool} {key : Key} :
    readPattern pattern allowWildcard = .ok key ↔
      (readName pattern = .ok key.segments ∧ key.wildcard = false) ∨
        allowWildcard = true ∧
          ((pattern = ['*'] ∨ pattern = ['*', '.']) ∧ key = .everything ∨
            ∃ name, pattern = '*' :: '.' :: name ∧ readName name = .ok key.segments ∧
              key.wildcard = true) := by
  constructor
  · intro h
    unfold readPattern at h
    split at h
    next star name split =>
    split at h
    · cases h
    next allowed =>
    have allowed : star = true → allowWildcard = true := by simpa using allowed
    split at h
    · next empty =>
      split at h
      · next starred =>
        cases h
        refine .inr ⟨allowed starred, .inl ⟨?_, rfl⟩⟩
        rcases splitStar_eq split with ⟨plain, -⟩ | ⟨-, ⟨lone, -⟩ | dotted⟩
        · exact absurd (plain.symm.trans starred) Bool.false_ne_true
        · exact .inl lone
        · exact .inr (by rw [dotted, List.isEmpty_iff.1 empty])
      · cases h
    · next nonempty =>
      split at h
      · cases h
      · next segments read =>
        cases h
        rcases splitStar_eq split with ⟨rfl, rfl⟩ | ⟨rfl, ⟨-, rfl⟩ | dotted⟩
        · exact .inl ⟨read, rfl⟩
        · exact absurd rfl nonempty
        · exact .inr ⟨allowed rfl, .inr ⟨name, dotted, read, rfl⟩⟩
  · obtain ⟨segments, wildcard⟩ := key
    rintro (⟨read, exact⟩ | ⟨rfl, ⟨lone, all⟩ | ⟨name, rfl, read, wild⟩⟩)
    · obtain rfl : wildcard = false := exact
      have plain : splitStar pattern = (false, pattern) :=
        splitStar_of_not_mem (star_not_mem_of_readName read)
      simp [readPattern, plain, ne_nil_of_readName read, read]
    · rw [all]
      rcases lone with rfl | rfl <;> rfl
    · obtain rfl : wildcard = true := wild
      have split : splitStar ('*' :: '.' :: name) = (true, name) := rfl
      simp [readPattern, split, ne_nil_of_readName read, read]

theorem parse_eq_ok_iff {pattern : String} {allowWildcard : Bool} {key : Key} :
    parse pattern allowWildcard = .ok key ↔ readPattern pattern.toList allowWildcard = .ok key := by
  unfold parse
  cases readPattern pattern.toList allowWildcard <;> simp

/-- The key of a pattern has labels for segments. Only the lone star has none. -/
theorem labels_of_parse {pattern : String} {allowWildcard : Bool} {key : Key}
    (h : parse pattern allowWildcard = .ok key) :
    (∀ s ∈ key.segments, IsLabel s) ∧ (key.wildcard = false → key.segments ≠ []) := by
  rcases readPattern_eq_ok_iff.1 (parse_eq_ok_iff.1 h) with
    ⟨read, -⟩ | ⟨-, ⟨-, rfl⟩ | ⟨name, -, read, -⟩⟩
  · exact ⟨(labels_of_readName read).2, fun _ => (labels_of_readName read).1⟩
  · exact ⟨by simp [Key.everything], by simp [Key.everything]⟩
  · exact ⟨(labels_of_readName read).2, fun _ => (labels_of_readName read).1⟩

theorem parse_eq_error {pattern : String} {allowWildcard : Bool} {e : RouteError}
    (h : parse pattern allowWildcard = .error e) : ∃ fault, e = .invalidHostname pattern fault := by
  unfold parse at h
  split at h
  · next fault _ => exact ⟨fault, (Except.error.inj h).symm⟩
  · cases h

theorem candidate?_eq_some_iff {name : String} {key : Key} :
    candidate? name = some key ↔
      dropTrailingDot name.toList ≠ [] ∧ key.wildcard = false ∧
        readName (dropTrailingDot name.toList) = .ok key.segments := by
  unfold candidate?
  obtain ⟨segments, wildcard⟩ := key
  generalize dropTrailingDot name.toList = read
  cases read with
  | nil => simp
  | cons c rest =>
    cases hr : readName (c :: rest) with
    | error fault => simp [Except.toOption, hr]
    | ok labels => simp [Except.toOption, hr, and_comm, Bool.false_eq]

theorem labels_of_candidate? {name : String} {key : Key} (h : candidate? name = some key) :
    (∀ s ∈ key.segments, IsLabel s) ∧ key.segments ≠ [] ∧ key.wildcard = false := by
  obtain ⟨-, exact, read⟩ := candidate?_eq_some_iff.1 h
  exact ⟨(labels_of_readName read).2, (labels_of_readName read).1, exact⟩

def dotted (segments : List String) : List Char := glue '.' (segments.reverse.map String.toList)

theorem dotted_append {front rest : List String} (hf : front ≠ []) (hr : rest ≠ []) :
    dotted (front ++ rest) = dotted rest ++ '.' :: dotted front := by
  rw [dotted, List.reverse_append, List.map_append]
  exact Text.glue_append (by simpa using hr) (by simpa using hf)

section Dotted

variable {segments : List String} (nonempty : segments ≠ []) (labels : ∀ s ∈ segments, IsLabel s)
include nonempty labels

theorem pieces_dotted : pieces '.' (dotted segments) = segments.reverse.map String.toList := by
  refine Text.pieces_glue (by simpa using nonempty) fun l hl => ?_
  obtain ⟨s, hs, rfl⟩ := List.mem_map.1 hl
  exact (labels s (List.mem_reverse.1 hs)).no_dot

/-- Labels are read from the name that they spell. -/
theorem readName_dotted : readName (dotted segments) = .ok segments := by
  refine readName_eq_ok_iff.2 ⟨fun l hl => ?_, ?_⟩
  · rw [pieces_dotted nonempty labels] at hl
    obtain ⟨s, hs, rfl⟩ := List.mem_map.1 hl
    exact (labels s (List.mem_reverse.1 hs)).1
  · have same : segments.map (foldLabel ∘ String.toList) = segments.map id :=
      List.map_congr_left fun s hs => (labels s hs).foldLabel_eq
    rw [pieces_dotted nonempty labels, List.map_map, ← List.map_reverse, List.reverse_reverse, same,
      List.map_id]

/-- Labels are the key of the name that they spell. -/
theorem candidate?_of_labels : ∃ name, candidate? name = some ⟨segments, false⟩ := by
  have read := readName_dotted nonempty labels
  refine ⟨String.ofList (dotted segments), candidate?_eq_some_iff.2 ?_⟩
  rw [String.toList_ofList, dropTrailingDot_of_readName read]
  exact ⟨ne_nil_of_readName read, rfl, read⟩

end Dotted

end Turnstile.Routing.Hostname
