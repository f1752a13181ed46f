import Turnstile.Proofs.Routing.PathText

namespace Turnstile.Routing

open Text (pieces)

namespace Pathname

/-- A component as it may be written: one or more letters, digits, hyphens, underscores and dots,
but neither a lone dot nor two. -/
structure WellFormed (component : String) : Prop where
  nonempty : component ≠ ""
  chars : ∀ c ∈ component.toList, c.isAlphanum ∨ c = '-' ∨ c = '_' ∨ c = '.'
  proper : component ≠ "." ∧ component ≠ ".."

/-- Which texts are patterns, and the keys that they stand for. -/
inductive Denotes (allowWildcard : Bool) : String → Key → Prop
  /-- One component or more, for this path. -/
  | exact {components : List String} (nonempty : components ≠ [])
      (good : ∀ c ∈ components, WellFormed c) :
      Denotes allowWildcard (String.ofList (slashed components)) ⟨components, false⟩
  /-- Components, or none, and a slash, for the directory. -/
  | directory {components : List String} (good : ∀ c ∈ components, WellFormed c) :
      Denotes allowWildcard (String.ofList (slashed components) ++ "/") ⟨components ++ [""], false⟩
  /-- Components, or none, a slash and a star, for the path and all below it. -/
  | below {components : List String} (allowed : allowWildcard = true)
      (good : ∀ c ∈ components, WellFormed c) :
      Denotes allowWildcard (String.ofList (slashed components) ++ "/*") ⟨components, true⟩

theorem componentFault?_eq_none_iff_wellFormed {component : String} :
    componentFault? component.toList = none ↔ WellFormed component := by
  have chars_iff : (∀ c ∈ component.toList, isComponentChar c) ↔
      ∀ c ∈ component.toList, c.isAlphanum ∨ c = '-' ∨ c = '_' ∨ c = '.' := by
    simp [isComponentChar, or_assoc]
  have text_iff (text : String) : component.toList ≠ text.toList ↔ component ≠ text :=
    not_congr String.toList_inj
  rw [componentFault?_eq_none_iff, chars_iff]
  constructor
  · rintro ⟨nonempty, one, two, chars⟩
    exact ⟨(text_iff "").1 nonempty, chars, (text_iff ".").1 one, (text_iff "..").1 two⟩
  · rintro ⟨nonempty, chars, one, two⟩
    exact ⟨(text_iff "").2 nonempty, (text_iff ".").2 one, (text_iff "..").2 two, chars⟩

theorem WellFormed.slashless {component : String} (h : WellFormed component) :
    '/' ∉ component.toList := by
  intro slash
  exact absurd (h.chars '/' slash) (by decide)

/-- A text that begins with a slash is pieces after slashes, of which one is the last. -/
theorem exists_slashed {pattern : String} {rest : List Char}
    (written : pattern.toList = '/' :: rest) :
    ∃ init last, pattern.toList = slashed (init ++ [last]) ∧
      ∀ s ∈ init ++ [last], '/' ∉ s.toList := by
  have nonempty : (pieces '/' rest).map String.ofList ≠ [] := by simp [Text.pieces_ne_nil]
  obtain ⟨init, last, split⟩ : ∃ init last, (pieces '/' rest).map String.ofList = init ++ [last] :=
    ⟨_, _, (List.dropLast_concat_getLast nonempty).symm⟩
  refine ⟨init, last, ?_, fun s hs => ?_⟩
  · rw [← split, slashed_pieces, written]
  · rw [← split] at hs
    obtain ⟨p, hp, rfl⟩ := List.mem_map.1 hs
    rw [String.toList_ofList]
    exact Text.not_mem_of_mem_pieces hp

/-- The last piece tells what a pattern stands for. The others are components. -/
theorem parse_slashed_eq_ok_iff {pattern : String} {init : List String} {last : String}
    (written : pattern.toList = slashed (init ++ [last]))
    (slashless : ∀ s ∈ init ++ [last], '/' ∉ s.toList) {allowWildcard : Bool} {key : Key} :
    parse pattern allowWildcard = .ok key ↔
      (∀ c ∈ init, WellFormed c) ∧
        (last = "*" ∧ allowWildcard = true ∧ key = ⟨init, true⟩ ∨
          last = "" ∧ key = ⟨init ++ [""], false⟩ ∨
          WellFormed last ∧ key = ⟨init ++ [last], false⟩) := by
  have nonempty : init ++ [last] ≠ [] := by simp
  have cut : pieces '/' (Text.glue '/' ((init ++ [last]).map String.toList)) =
      init.map String.toList ++ [last.toList] := by
    rw [Text.pieces_glue (by simp), List.map_append, List.map_singleton]
    intro p hp
    obtain ⟨s, hs, rfl⟩ := List.mem_map.1 hp
    exact slashless s hs
  have spelled : (init.map String.toList).map String.ofList = init := by simp [Function.comp_def]
  have star : last.toList = ['*'] ↔ last = "*" :=
    ⟨fun h => String.toList_inj.1 h, congrArg String.toList⟩
  have empty : last.toList = [] ↔ last = "" := String.toList_eq_nil_iff
  rw [parse_eq_ok_iff, written, slashed_of_ne_nil nonempty, readPattern, cut,
    readComponents_concat_eq_ok_iff, List.map_append, spelled, star, empty,
    componentFault?_eq_none_iff_wellFormed]
  simp [componentFault?_eq_none_iff_wellFormed]

theorem parse_eq_ok_iff_denotes {pattern : String} {allowWildcard : Bool} {key : Key} :
    parse pattern allowWildcard = .ok key ↔ Denotes allowWildcard pattern key := by
  constructor
  · intro read
    obtain ⟨rest, slash⟩ : ∃ rest, pattern.toList = '/' :: rest := by
      have read := parse_eq_ok_iff.1 read
      unfold readPattern at read
      split at read
      · next rest slash => exact ⟨rest, slash⟩
      · cases read
    obtain ⟨init, last, written, slashless⟩ := exists_slashed slash
    have shown (tail : String) (h : slashed [last] = tail.toList) :
        pattern = String.ofList (slashed init) ++ tail := by
      rw [← String.toList_inj, written, slashed_append, h]
      simp
    obtain ⟨good, ⟨rfl, allowed, rfl⟩ | ⟨rfl, rfl⟩ | ⟨proper, rfl⟩⟩ :=
      (parse_slashed_eq_ok_iff written slashless).1 read
    · rw [shown "/*" rfl]
      exact .below allowed good
    · rw [shown "/" rfl]
      exact .directory good
    · have whole : pattern = String.ofList (slashed (init ++ [last])) := by
        rw [← written, String.ofList_toList]
      rw [whole]
      refine .exact (by simp) fun c hc => ?_
      rcases List.mem_append.1 hc with hc | hc
      · exact good c hc
      · exact List.mem_singleton.1 hc ▸ proper
  · intro denotes
    have slashless {components : List String} {last : String}
        (good : ∀ c ∈ components, WellFormed c) (hl : '/' ∉ last.toList) :
        ∀ s ∈ components ++ [last], '/' ∉ s.toList := by
      intro s hs
      rcases List.mem_append.1 hs with hs | hs
      · exact (good s hs).slashless
      · exact List.mem_singleton.1 hs ▸ hl
    cases denotes with
    | @exact components nonempty good =>
      obtain ⟨init, last, rfl⟩ : ∃ init last, components = init ++ [last] :=
        ⟨_, _, (List.dropLast_concat_getLast nonempty).symm⟩
      have good' : ∀ c ∈ init, WellFormed c := fun c hc => good c (List.mem_append_left _ hc)
      have proper : WellFormed last := good last (by simp)
      refine (parse_slashed_eq_ok_iff String.toList_ofList (slashless good' proper.slashless)).2 ?_
      exact ⟨good', .inr (.inr ⟨proper, rfl⟩)⟩
    | @directory components good =>
      have written : (String.ofList (slashed components) ++ "/").toList =
          slashed (components ++ [""]) := by simp [slashed]
      refine (parse_slashed_eq_ok_iff written (slashless good (by simp))).2 ?_
      exact ⟨good, .inr (.inl ⟨rfl, rfl⟩)⟩
    | @below components allowed good =>
      have written : (String.ofList (slashed components) ++ "/*").toList =
          slashed (components ++ ["*"]) := by simp [slashed]
      refine (parse_slashed_eq_ok_iff written (slashless good (by decide))).2 ?_
      exact ⟨good, .inl ⟨rfl, allowed, rfl⟩⟩

theorem parse_eq_error {pattern : String} {allowWildcard : Bool} {e : RouteError}
    (h : parse pattern allowWildcard = .error e) : ∃ fault, e = .invalidPath pattern fault := by
  unfold parse at h
  split at h
  · next fault _ => exact ⟨fault, (Except.error.inj h).symm⟩
  · cases h

/-- Path patterns are read by their grammar, and what is not read is named in the error. The key of
a pattern is shown as the pattern, byte for byte, and is read again from this text; so different
patterns have different keys. -/
theorem path_patterns_by_grammar :
    (∀ pattern allowWildcard key,
        parse pattern allowWildcard = .ok key ↔ Denotes allowWildcard pattern key) ∧
      (∀ pattern allowWildcard e, parse pattern allowWildcard = .error e →
        ∃ fault, e = .invalidPath pattern fault) ∧
      (∀ pattern allowWildcard key, parse pattern allowWildcard = .ok key →
        key.pathText = pattern ∧ parse key.pathText allowWildcard = .ok key) ∧
      ∀ pattern pattern' allowWildcard allowWildcard' key key',
        parse pattern allowWildcard = .ok key → parse pattern' allowWildcard' = .ok key' →
          pattern ≠ pattern' → key ≠ key' := by
  refine ⟨fun pattern allowWildcard key => parse_eq_ok_iff_denotes,
    fun pattern allowWildcard e => parse_eq_error, ?_, ?_⟩
  · intro pattern allowWildcard key read
    have shown := (parse_spec read).1
    exact ⟨shown, by rwa [shown]⟩
  · rintro pattern pattern' allowWildcard allowWildcard' key key' read read' different rfl
    exact different ((parse_spec read).1.symm.trans (parse_spec read').1)

/-- A directory, the path below it and a star that does not come last. -/
theorem path_patterns_by_grammar_star :
    Denotes false "/a/b.txt/" ⟨["a", "b.txt", ""], false⟩ ∧
      (⟨["a", "b.txt", ""], false⟩ : Key).pathText = "/a/b.txt/" ∧
      parse "/a/b.txt/*" true = .ok ⟨["a", "b.txt"], true⟩ ∧
      (⟨["a", "b.txt", ""], false⟩ : Key) ≠ ⟨["a", "b.txt"], true⟩ ∧
      ∀ key, ¬ Denotes true "/a/*/b" key := by
  obtain ⟨grammar, -, shown, apart⟩ := path_patterns_by_grammar
  have directory : parse "/a/b.txt/" false = .ok ⟨["a", "b.txt", ""], false⟩ := rfl
  have below : parse "/a/b.txt/*" true = .ok ⟨["a", "b.txt"], true⟩ := rfl
  refine ⟨(grammar _ _ _).1 directory, (shown _ _ _ directory).1, below,
    apart _ _ _ _ _ _ directory below (by decide), fun key denotes => ?_⟩
  have read := (grammar _ _ _).2 denotes
  cases read

end Pathname

end Turnstile.Routing
