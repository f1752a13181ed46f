import Turnstile.Proofs.Routing.Matching
import Turnstile.Routing.Pathname

/-!
# Paths as texts

A path is its segments, each after a slash (`slashed`), and segments without slashes can be read off
it (`pieces_slashed`). Three texts are of this form: the path of a request (`slashed_candidate`),
the text of a key (`pathText_of_exact`, `pathText_of_wildcard`) and a pattern, which is the text of
its key (`parse_spec`). So what keys say about each other their texts say as well: equal segments
are equal texts, and a beginning is followed by nothing or by a slash (`slashed_prefix_iff`). Hence
a pattern matches a path as a text exactly if its key covers that of the path
(`matches_iff_covers`).
-/

namespace Turnstile.Routing

open Text (pieces glue)

/-! ### Segments after slashes -/

def slashed (segments : List String) : List Char :=
  segments.flatMap fun segment => '/' :: segment.toList

theorem slashed_append (front rest : List String) :
    slashed (front ++ rest) = slashed front ++ slashed rest :=
  List.flatMap_append

theorem slashed_eq_glue (segments : List String) :
    slashed segments = glue '/' ([] :: segments.map String.toList) := by
  rw [Text.glue_cons, List.flatMap_map, List.nil_append]
  rfl

theorem slashed_of_ne_nil {segments : List String} (nonempty : segments ≠ []) :
    slashed segments = '/' :: glue '/' (segments.map String.toList) := by
  obtain ⟨first, rest, rfl⟩ := List.exists_cons_of_ne_nil nonempty
  rw [slashed_eq_glue]
  rfl

/-- A text cut at slashes and put together again has a slash in front. -/
theorem slashed_pieces (text : List Char) :
    slashed ((pieces '/' text).map String.ofList) = '/' :: text := by
  have nonempty : (pieces '/' text).map String.ofList ≠ [] := by simp [Text.pieces_ne_nil]
  rw [slashed_of_ne_nil nonempty, List.map_map]
  simp [Function.comp_def, Text.glue_pieces]

section Slashless

variable {segments others : List String}

/-- Segments that have no slashes are found again between the slashes of the text. -/
theorem pieces_slashed (slashless : ∀ s ∈ segments, '/' ∉ s.toList) :
    pieces '/' (slashed segments) = [] :: segments.map String.toList := by
  rw [slashed_eq_glue]
  apply Text.pieces_glue (List.cons_ne_nil _ _)
  intro p hp
  rcases List.mem_cons.1 hp with rfl | hp
  · simp
  · obtain ⟨s, hs, rfl⟩ := List.mem_map.1 hp
    exact slashless s hs

theorem slashed_inj (hs : ∀ s ∈ segments, '/' ∉ s.toList) (ho : ∀ s ∈ others, '/' ∉ s.toList) :
    slashed segments = slashed others ↔ segments = others := by
  constructor
  · intro h
    have cut := congrArg (pieces '/') h
    rw [pieces_slashed hs, pieces_slashed ho] at cut
    exact (List.map_inj_right fun _ _ => String.toList_inj.1).1 (List.cons.inj cut).2
  · exact congrArg slashed

/-- Segments begin others if in the text nothing or a slash follows them. -/
theorem slashed_prefix_iff (hs : ∀ s ∈ segments, '/' ∉ s.toList)
    (ho : ∀ s ∈ others, '/' ∉ s.toList) :
    segments <+: others ↔ slashed others = slashed segments ∨
      ∃ rest, slashed others = slashed segments ++ '/' :: rest := by
  constructor
  · rintro ⟨more, rfl⟩
    cases more with
    | nil => exact .inl (by rw [List.append_nil])
    | cons next rest => exact .inr ⟨next.toList ++ slashed rest, slashed_append segments _⟩
  · rintro (h | ⟨rest, h⟩)
    · exact (slashed_inj hs ho).1 h.symm ▸ List.prefix_rfl
    · have cut := congrArg (pieces '/') h
      rw [Text.pieces_append_cons, pieces_slashed ho, pieces_slashed hs] at cut
      obtain ⟨front, back, rfl, hf, -⟩ := List.map_eq_append_iff.1 (List.cons.inj cut).2
      rw [(List.map_inj_right fun _ _ => String.toList_inj.1).1 hf]
      exact List.prefix_append segments back

end Slashless

/-! ### Keys -/

namespace Key

theorem toList_pathText (k : Key) :
    k.pathText.toList = '/' :: glue '/' ((k.parts .path).map String.toList) := by
  simp [pathText, render, Style.path, Text.intercalate_eq_glue]

theorem pathText_of_exact {k : Key} (exact : k.wildcard = false) (nonempty : k.segments ≠ []) :
    k.pathText.toList = slashed k.segments := by
  rw [slashed_of_ne_nil nonempty, toList_pathText]
  simp [parts, Style.path, exact]

theorem pathText_of_wildcard {k : Key} (wild : k.wildcard = true) :
    k.pathText.toList = slashed k.segments ++ ['/', '*'] := by
  have parts : k.parts .path = k.segments ++ ["*"] := by simp [parts, Style.path, wild]
  rw [toList_pathText, parts, ← slashed_of_ne_nil (by simp), slashed_append]
  rfl

/-- Where no segments are shown as nothing, every exact key is shown as its segments. -/
theorem pathText_or_nothing {k : Key} (exact : k.wildcard = false) :
    (if k.isEmpty then "" else k.pathText).toList = slashed k.segments := by
  by_cases empty : k.segments = []
  · simp [isEmpty, empty, slashed]
  · rw [if_neg (by simpa [isEmpty] using empty), pathText_of_exact exact empty]

end Key

/-! ### Patterns -/

namespace Pathname

theorem componentFault?_eq_none_iff {component : List Char} :
    componentFault? component = none ↔
      component ≠ [] ∧ component ≠ ['.'] ∧ component ≠ ['.', '.'] ∧
        ∀ c ∈ component, isComponentChar c := by
  unfold componentFault?
  by_cases nonempty : component = []
  · simp [nonempty]
  · by_cases dots : component = ['.'] ∨ component = ['.', '.']
    · rcases dots with rfl | rfl <;> simp
    · obtain ⟨one, two⟩ := not_or.1 dots
      simp [nonempty, one, two]

theorem firstFault?_eq_none_iff {components : List (List Char)} :
    firstFault? components = none ↔ ∀ c ∈ components, componentFault? c = none := by
  induction components with
  | nil => simp [firstFault?]
  | cons component rest ih => simp [firstFault?, Option.or_eq_none_iff, ih]

/-- A segment of a pattern's key: a component, or nothing at the end of a directory. -/
def IsSegment (segment : String) : Prop := ∀ c ∈ segment.toList, isComponentChar c

theorem IsSegment.slashless {segment : String} (h : IsSegment segment) : '/' ∉ segment.toList :=
  fun hc => absurd (h '/' hc) (by decide)

/-- A pattern's last component tells what it stands for: with a star all below the others, with
nothing the directory that they name, otherwise itself. -/
theorem readComponents_concat_eq_ok_iff {init : List (List Char)} {last : List Char}
    {allowWildcard : Bool} {key : Key} :
    readComponents (init ++ [last]) allowWildcard = .ok key ↔
      (∀ c ∈ init, componentFault? c = none) ∧
        (last = ['*'] ∧ allowWildcard ∧ key = ⟨init.map String.ofList, true⟩ ∨
          last = [] ∧ key = ⟨init.map String.ofList ++ [""], false⟩ ∨
          componentFault? last = none ∧ key = ⟨(init ++ [last]).map String.ofList, false⟩) := by
  have whole : firstFault? (init ++ [last]) = none ↔
      firstFault? init = none ∧ componentFault? last = none := by
    simp [firstFault?_eq_none_iff, or_imp, forall_and]
  rw [← firstFault?_eq_none_iff]
  unfold readComponents
  by_cases star : last = ['*']
  · have faulty : componentFault? ['*'] ≠ none := by decide
    cases allowWildcard <;> cases hf : firstFault? init <;> simp [star, faulty, hf, eq_comm]
  · by_cases directory : last = []
    · have faulty : componentFault? [] ≠ none := by decide
      cases hf : firstFault? init <;> simp [directory, faulty, hf, eq_comm]
    · have exact : (last == ['*']) = false := beq_eq_false_iff_ne.2 star
      simp only [star, directory, false_and, false_or, ← and_assoc, ← whole]
      cases hf : firstFault? (init ++ [last]) with
      | some fault => simp [exact, directory, hf]
      | none => rw [eq_comm (a := key)]; simp [exact, directory, hf]

/-- What is read from a pattern is shown as the pattern. -/
theorem readComponents_spec {components : List (List Char)} {allowWildcard : Bool} {key : Key}
    (nonempty : components ≠ []) (h : readComponents components allowWildcard = .ok key) :
    (key.parts .path).map String.toList = components ∧ (∀ s ∈ key.segments, IsSegment s) ∧
      (key.wildcard = false → key.segments ≠ []) := by
  have named {cs : List (List Char)} (good : ∀ c ∈ cs, componentFault? c = none) :
      ∀ s ∈ cs.map String.ofList, IsSegment s := by
    intro s hs
    obtain ⟨c, hc, rfl⟩ := List.mem_map.1 hs
    rw [IsSegment, String.toList_ofList]
    exact (componentFault?_eq_none_iff.1 (good c hc)).2.2.2
  obtain ⟨init, last, rfl⟩ : ∃ init last, components = init ++ [last] :=
    ⟨_, _, (List.dropLast_concat_getLast nonempty).symm⟩
  obtain ⟨good, ⟨rfl, -, rfl⟩ | ⟨rfl, rfl⟩ | ⟨hl, rfl⟩⟩ := readComponents_concat_eq_ok_iff.1 h
  · exact ⟨by simp [Key.parts, Key.Style.path, Function.comp_def], named good, by simp⟩
  · refine ⟨by simp [Key.parts, Key.Style.path, Function.comp_def], ?_, by simp⟩
    intro s hs
    rcases List.mem_append.1 hs with hs | hs
    · exact named good s hs
    · rw [List.mem_singleton.1 hs]
      simp [IsSegment]
  · have all : ∀ c ∈ init ++ [last], componentFault? c = none := by
      simpa [or_imp, forall_and] using ⟨good, hl⟩
    exact ⟨by simp [Key.parts, Key.Style.path, Function.comp_def], named all, by simp⟩

theorem parse_eq_ok_iff {pattern : String} {allowWildcard : Bool} {key : Key} :
    parse pattern allowWildcard = .ok key ↔ readPattern pattern.toList allowWildcard = .ok key := by
  unfold parse
  cases readPattern pattern.toList allowWildcard <;> simp

theorem parse_spec {pattern : String} {allowWildcard : Bool} {key : Key}
    (h : parse pattern allowWildcard = .ok key) :
    key.pathText = pattern ∧ (∀ s ∈ key.segments, IsSegment s) ∧
      (key.wildcard = false → key.segments ≠ []) := by
  have read := parse_eq_ok_iff.1 h
  unfold readPattern at read
  split at read
  · next rest written =>
    obtain ⟨shown, named⟩ := readComponents_spec (Text.pieces_ne_nil '/' rest) read
    refine ⟨?_, named⟩
    rw [← String.toList_inj, Key.toList_pathText, shown, Text.glue_pieces, written]
  · cases read

/-! ### Requests -/

/-- The path that a request asks for: its target before the query and the fragment, with a slash in
front. -/
def requested (target : String) : String :=
  let path := dropQuery target.toList
  String.ofList (if path.head? = some '/' then path else '/' :: path)

theorem toList_requested (target : String) :
    (requested target).toList = '/' :: dropSlash (dropQuery target.toList) := by
  unfold requested
  rw [String.toList_ofList]
  generalize dropQuery target.toList = path
  cases path with
  | nil => rfl
  | cons c rest =>
    by_cases slash : c = '/'
    · rw [slash]
      rfl
    · simp [dropSlash, slash]

theorem slashed_candidate (target : String) :
    slashed (candidate target).segments = (requested target).toList := by
  rw [toList_requested]
  exact slashed_pieces _

theorem slashless_of_candidate {target s : String} (hs : s ∈ (candidate target).segments) :
    '/' ∉ s.toList := by
  obtain ⟨p, hp, rfl⟩ := List.mem_map.1 hs
  rw [String.toList_ofList]
  exact Text.not_mem_of_mem_pieces hp

/-! ### Patterns and requests -/

/-- A pattern that ends in a slash and a star. -/
def EndsInStar (pattern : String) : Prop := ∃ stem, pattern = stem ++ "/*"

/-- Which paths a pattern matches, told from the texts alone: a stem with a slash and a star after
it matches the stem and what follows the stem after a slash, any other pattern itself. -/
def Matches (pattern path : String) : Prop :=
  (¬ EndsInStar pattern ∧ path = pattern) ∨
    ∃ stem, pattern = stem ++ "/*" ∧ (path = stem ∨ ∃ rest, path = stem ++ "/" ++ rest)

def componentCount (path : String) : Nat := (pieces '/' path.toList).tail.length

/-- Which of two patterns that match a path is tried first: the one that does not end in a star, or
else the one whose stem has more components. -/
def Precedes (p q : String) : Prop :=
  (¬ EndsInStar p ∧ EndsInStar q) ∨
    ∃ stem stem', p = stem ++ "/*" ∧ q = stem' ++ "/*" ∧ componentCount stem' < componentCount stem

theorem Precedes.ne {p q : String} (h : Precedes p q) : p ≠ q := by
  rintro rfl
  rcases h with ⟨plain, star⟩ | ⟨stem, stem', rfl, hs, fewer⟩
  · exact plain star
  · have same : stem = stem' := (String.append_left_inj "/*").1 hs
    exact absurd fewer (same ▸ Nat.lt_irrefl _)

section Reading

variable {pattern : String} {allowWildcard : Bool} {key : Key}

/-- The stem of a pattern is the path of its key. -/
theorem stem_iff (h : parse pattern allowWildcard = .ok key) {stem : String} :
    pattern = stem ++ "/*" ↔ key.wildcard = true ∧ stem.toList = slashed key.segments := by
  obtain ⟨rfl, segments, nonempty⟩ := parse_spec h
  rw [← String.toList_inj, String.toList_append]
  cases hw : key.wildcard with
  | true => simp [Key.pathText_of_wildcard hw, eq_comm]
  | false =>
    simp only [Bool.false_eq_true, false_and, iff_false]
    rw [Key.pathText_of_exact hw (nonempty hw)]
    intro same
    -- The star would be a segment.
    have cut := congrArg (pieces '/') same
    rw [pieces_slashed fun s hs => (segments s hs).slashless] at cut
    have star : ['*'] ∈ [] :: key.segments.map String.toList := by
      rw [cut, show stem.toList ++ "/*".toList = stem.toList ++ '/' :: ['*'] from rfl,
        Text.pieces_append_cons]
      exact List.mem_append_right _ List.mem_cons_self
    obtain ⟨s, hs, hstar⟩ : ∃ s ∈ key.segments, s.toList = ['*'] := by simpa using star
    exact absurd (segments s hs '*' (by simp [hstar])) (by decide)

theorem endsInStar_iff (h : parse pattern allowWildcard = .ok key) :
    EndsInStar pattern ↔ key.wildcard = true := by
  constructor
  · rintro ⟨stem, hs⟩
    exact ((stem_iff h).1 hs).1
  · intro wild
    exact ⟨_, (stem_iff h).2 ⟨wild, String.toList_ofList⟩⟩

theorem matches_iff_covers (h : parse pattern allowWildcard = .ok key) (target : String) :
    Matches pattern (requested target) ↔ key.Covers (candidate target) := by
  obtain ⟨shown, segments, nonempty⟩ := parse_spec h
  have slashless : ∀ s ∈ key.segments, '/' ∉ s.toList := fun s hs => (segments s hs).slashless
  have slashless' : ∀ s ∈ (candidate target).segments, '/' ∉ s.toList :=
    fun s hs => slashless_of_candidate hs
  unfold Matches Key.Covers
  rw [endsInStar_iff h]
  simp only [stem_iff h]
  cases hw : key.wildcard with
  | false =>
    rw [if_neg Bool.false_ne_true, ← slashed_inj slashless slashless', slashed_candidate,
      ← Key.pathText_of_exact hw (nonempty hw), shown, String.toList_inj]
    simp [eq_comm]
  | true =>
    rw [if_pos rfl, slashed_prefix_iff slashless slashless', slashed_candidate]
    simp only [not_true, false_and, false_or, true_and]
    constructor
    · rintro ⟨stem, hs, covered⟩
      rw [← hs]
      rcases covered with same | ⟨rest, below⟩
      · exact .inl (congrArg String.toList same)
      · exact .inr ⟨rest.toList, by simp [below]⟩
    · intro covered
      refine ⟨String.ofList (slashed key.segments), String.toList_ofList, ?_⟩
      rcases covered with same | ⟨rest, below⟩
      · exact .inl (String.toList_inj.1 (by rw [same, String.toList_ofList]))
      · exact .inr ⟨String.ofList rest, String.toList_inj.1 (by simp [below])⟩

theorem componentCount_stem (h : parse pattern allowWildcard = .ok key) {stem : String}
    (hs : pattern = stem ++ "/*") : componentCount stem = key.length := by
  obtain ⟨-, segments, -⟩ := parse_spec h
  rw [componentCount, ((stem_iff h).1 hs).2, pieces_slashed fun s hs => (segments s hs).slashless]
  simp [Key.length]

/-- Of two patterns that match a request, the one with the more specific key precedes. -/
theorem precedes_of_moreSpecific {pattern' : String} {key' candidate : Key}
    (h : parse pattern allowWildcard = .ok key) (h' : parse pattern' allowWildcard = .ok key')
    (covers : key.Covers candidate) (covers' : key'.Covers candidate)
    (more : key.MoreSpecific key') : Precedes pattern pattern' := by
  -- No key is longer than the candidate, and an exact one is just as long.
  have within : key.length ≤ candidate.length := covers.length_le
  have wild' : key'.wildcard = true := by
    rcases more with shorter | ⟨-, -, wild'⟩
    · apply eq_true_of_ne_false
      intro exact
      have whole : key'.length = candidate.length := covers'.length_eq exact
      omega
    · exact wild'
  cases hw : key.wildcard with
  | false => exact .inl ⟨by simp [endsInStar_iff h, hw], (endsInStar_iff h').2 wild'⟩
  | true =>
    obtain ⟨stem, hs⟩ := (endsInStar_iff h).2 hw
    obtain ⟨stem', hs'⟩ := (endsInStar_iff h').2 wild'
    refine .inr ⟨stem, stem', hs, hs', ?_⟩
    rw [componentCount_stem h hs, componentCount_stem h' hs']
    rcases more with shorter | ⟨-, exact, -⟩
    · exact shorter
    · simp [hw] at exact

end Reading

end Pathname

end Turnstile.Routing
