import Turnstile.Proofs.Routing.Answers

/-!
# The grammar of host name patterns

`Denotes` says which texts are patterns and what each stands for. Reading follows it with one
exception, a star with nothing but a dot after it, which is read like a lone star
(`parse_eq_ok_iff_denotes`). A name that a client presents is read like a pattern in which no
wildcards are allowed, apart from one dot at its end (`candidate?_concat_dot`,
`candidate?_of_no_dot`). So what is bound under a name is found under every way to present it.
-/

namespace Turnstile.Routing

open Text (pieces glue)

namespace Hostname

/-- The text is labels with dots between them, and these are the segments of its key: the labels in
lower case, the last one first. -/
def Spells (text : String) (segments : List String) : Prop :=
  ∃ labels, labels ≠ [] ∧ (∀ l ∈ labels, WellFormed l) ∧ text.toList = glue '.' labels ∧
    segments = (labels.map fun l => String.ofList (l.map Char.toLower)).reverse

inductive Denotes (allowWildcard : Bool) : String → Key → Prop
  /-- A name, for itself. -/
  | name {text : String} {segments : List String} (spelled : Spells text segments) :
      Denotes allowWildcard text ⟨segments, false⟩
  /-- A star, for every name. -/
  | star (allowed : allowWildcard = true) : Denotes allowWildcard "*" ⟨[], true⟩
  /-- A star, a dot and a name, for all names below this one. -/
  | below {text : String} {segments : List String} (allowed : allowWildcard = true)
      (spelled : Spells text segments) : Denotes allowWildcard ("*." ++ text) ⟨segments, true⟩

theorem spells_iff {text : String} {segments : List String} :
    Spells text segments ↔ readName text.toList = .ok segments := by
  rw [readName_eq_ok_iff]
  simp only [labelFault?_eq_none_iff_wellFormed]
  constructor
  · rintro ⟨labels, nonempty, good, written, rfl⟩
    have dotless : ∀ l ∈ labels, '.' ∉ l := by
      intro l hl dot
      exact absurd ((good l hl).chars '.' dot) (by decide)
    have cut : pieces '.' text.toList = labels := by rw [written, Text.pieces_glue nonempty dotless]
    exact ⟨cut ▸ good, by rw [cut]; rfl⟩
  · rintro ⟨good, rfl⟩
    exact ⟨pieces '.' text.toList, Text.pieces_ne_nil _ _, good, (Text.glue_pieces _ _).symm, rfl⟩

theorem parse_eq_ok_iff_denotes {pattern : String} {allowWildcard : Bool} {key : Key} :
    parse pattern allowWildcard = .ok key ↔
      Denotes allowWildcard pattern key ∨
        (allowWildcard = true ∧ pattern = "*.") ∧ key = .everything := by
  rw [parse_eq_ok_iff, readPattern_eq_ok_iff]
  constructor
  · obtain ⟨segments, wildcard⟩ := key
    rintro (⟨read, exact⟩ | ⟨allowed, ⟨lone | dotted, all⟩ | ⟨name, written, read, wild⟩⟩)
    · obtain rfl : wildcard = false := exact
      exact .inl (.name (spells_iff.2 read))
    · rw [all, show pattern = "*" from String.toList_inj.1 lone]
      exact .inl (.star allowed)
    · exact .inr ⟨⟨allowed, String.toList_inj.1 dotted⟩, all⟩
    · obtain rfl : wildcard = true := wild
      have shown : pattern = "*." ++ String.ofList name := by
        rw [← String.toList_inj, written]
        simp
      rw [shown]
      exact .inl (.below allowed (spells_iff.2 (by rwa [String.toList_ofList])))
  · rintro (denotes | ⟨⟨allowed, rfl⟩, rfl⟩)
    · cases denotes with
      | name spelled => exact .inl ⟨spells_iff.1 spelled, rfl⟩
      | star allowed => exact .inr ⟨allowed, .inl ⟨.inl rfl, rfl⟩⟩
      | @below text segments allowed spelled =>
        refine .inr ⟨allowed, .inr ⟨text.toList, ?_, spells_iff.1 spelled, rfl⟩⟩
        rw [String.toList_append]
        rfl
    · exact .inr ⟨allowed, .inl ⟨.inr rfl, rfl⟩⟩

/-- In a pattern of the grammar no label is empty. -/
theorem Denotes.nil_not_mem_pieces {allowWildcard : Bool} {pattern : String} {key : Key}
    (h : Denotes allowWildcard pattern key) : [] ∉ pieces '.' pattern.toList := by
  cases h with
  | name spelled => exact nil_not_mem_pieces_of_readName (spells_iff.1 spelled)
  | star => decide
  | @below text segments allowed spelled =>
    have star : '.' ∉ ['*'] := by decide
    have cut : pieces '.' ("*." ++ text).toList = ['*'] :: pieces '.' text.toList := by
      rw [String.toList_append]
      exact Text.pieces_append_sep star _
    rw [cut, List.mem_cons, not_or]
    exact ⟨by decide, nil_not_mem_pieces_of_readName (spells_iff.1 spelled)⟩

theorem Denotes.wildcard_iff {allowWildcard : Bool} {pattern : String} {key : Key}
    (h : Denotes allowWildcard pattern key) :
    key.wildcard = true ↔ pattern.toList.head? = some '*' := by
  cases h with
  | name spelled =>
    have starless := star_not_mem_of_readName (spells_iff.1 spelled)
    simp only [Bool.false_eq_true, false_iff]
    intro first
    exact starless (List.mem_of_mem_head? first)
  | star => decide
  | below => simp [String.toList_append]

/-- Host name patterns are read by their grammar, but for a star with nothing but a dot after it
where wildcards are allowed: it is not in the grammar and reads like a lone star. It is also the
only text with an empty label that is read. The flag tells whether a pattern begins with a star, and
what is not read is named in the error. -/
theorem host_patterns_by_grammar (pattern : String) (allowWildcard : Bool) :
    (∀ key, parse pattern allowWildcard = .ok key ↔
        Denotes allowWildcard pattern key ∨
          (allowWildcard = true ∧ pattern = "*.") ∧ key = .everything) ∧
      ((∀ key, parse pattern allowWildcard = .ok key ↔ Denotes allowWildcard pattern key) ↔
        ¬ (allowWildcard = true ∧ pattern = "*.")) ∧
      (∀ key, parse pattern allowWildcard = .ok key →
        (key.wildcard = true ↔ pattern.toList.head? = some '*') ∧
          ([] ∈ pieces '.' pattern.toList → pattern = "*.")) ∧
      ∀ e, parse pattern allowWildcard = .error e →
        ∃ fault, e = .invalidHostname pattern fault := by
  refine ⟨fun key => parse_eq_ok_iff_denotes, ⟨?_, fun other key => ?_⟩, fun key read => ?_,
    fun e => parse_eq_error⟩
  · rintro agree ⟨rfl, rfl⟩
    have denotes := (agree .everything).1 rfl
    exact denotes.nil_not_mem_pieces (by decide)
  · rw [parse_eq_ok_iff_denotes, or_iff_left fun h => other h.1]
  · rcases parse_eq_ok_iff_denotes.1 read with denotes | ⟨⟨-, rfl⟩, rfl⟩
    · exact ⟨denotes.wildcard_iff, fun empty => absurd empty denotes.nil_not_mem_pieces⟩
    · exact ⟨by decide, fun _ => rfl⟩

/-- Capitals are read in lower case, and a hyphen inside a label is part of it. -/
theorem host_patterns_by_grammar_capitals :
    Denotes true "*.A-1.Example" ⟨["example", "a-1"], true⟩ ∧
      parse "*.A-1.Example" true = .ok ⟨["example", "a-1"], true⟩ ∧
      "*.A-1.Example".toList.head? = some '*' ∧
      (∀ key, parse "*.A-1.Example" false ≠ .ok key) ∧ ∀ key, ¬ Denotes true "a..b" key := by
  have spelled : Spells "A-1.Example" ["example", "a-1"] := spells_iff.2 rfl
  have denotes : Denotes true ("*." ++ "A-1.Example") ⟨["example", "a-1"], true⟩ :=
    .below rfl spelled
  have read := ((host_patterns_by_grammar "*.A-1.Example" true).1 _).2 (.inl denotes)
  have starred := ((host_patterns_by_grammar "*.A-1.Example" true).2.2.1 _ read).1.1 rfl
  refine ⟨denotes, read, starred, fun key h => ?_, fun key h => ?_⟩
  · cases h
  · have read := ((host_patterns_by_grammar "a..b" true).1 key).2 (.inl h)
    cases read

/-- A star with a dot and no name after it binds every name. -/
theorem dot_for_every_name :
    parse "*." true = .ok .everything ∧ (∀ key, ¬ Denotes true "*." key) ∧
      [] ∈ pieces '.' "*.".toList ∧
      ((HostTable.ofBinds [("*.", 0)]).resolve? "a.example").map (·.value) = some 0 := by
  refine ⟨rfl, fun key denotes => ?_, by decide, by decide⟩
  exact denotes.nil_not_mem_pieces (by decide)

theorem parse_false_eq_ok_iff {pattern : String} {key : Key} :
    parse pattern false = .ok key ↔
      readName pattern.toList = .ok key.segments ∧ key.wildcard = false := by
  rw [parse_eq_ok_iff, readPattern_eq_ok_iff]
  simp

/-- Where wildcards are not allowed, patterns without a star are read as where they are. -/
theorem parse_false_of_exact {pattern : String} {allowWildcard : Bool} {key : Key}
    (read : parse pattern allowWildcard = .ok key) (exact : key.wildcard = false) :
    parse pattern false = .ok key := by
  rw [parse_false_eq_ok_iff]
  rcases readPattern_eq_ok_iff.1 (parse_eq_ok_iff.1 read) with
    ⟨named, -⟩ | ⟨-, ⟨-, rfl⟩ | ⟨name, -, -, wild⟩⟩
  · exact ⟨named, exact⟩
  · cases exact
  · exact absurd (exact.symm.trans wild) Bool.false_ne_true

/-- A presented name has the key that a pattern without its trailing dot has. -/
theorem candidate?_eq {host stem : String} (cut : dropTrailingDot host.toList = stem.toList) :
    candidate? host = (parse stem false).toOption := by
  ext key
  have accepted : (parse stem false).toOption = some key ↔ parse stem false = .ok key := by
    cases parse stem false <;> simp [Except.toOption]
  rw [accepted, parse_false_eq_ok_iff, candidate?_eq_some_iff, cut]
  constructor
  · rintro ⟨-, exact, read⟩
    exact ⟨read, exact⟩
  · rintro ⟨read, exact⟩
    exact ⟨ne_nil_of_readName read, exact, read⟩

theorem candidate?_concat_dot (stem : String) :
    candidate? (stem ++ ".") = (parse stem false).toOption := by
  apply candidate?_eq
  simp [dropTrailingDot]

theorem candidate?_of_no_dot {host : String} (undotted : ∀ stem, host ≠ stem ++ ".") :
    candidate? host = (parse host false).toOption := by
  apply candidate?_eq
  apply if_neg
  intro last
  obtain ⟨front, written⟩ := List.getLast?_eq_some_iff.1 last
  apply undotted (String.ofList front)
  rw [← String.toList_inj, written]
  simp

/-- A name that is bound exactly has its own key as it is written, and with a dot at its end. -/
theorem candidate?_of_parse {pattern : String} {allowWildcard : Bool} {key : Key}
    (read : parse pattern allowWildcard = .ok key) (exact : key.wildcard = false) :
    candidate? pattern = some key ∧ candidate? (pattern ++ ".") = some key := by
  have plain := parse_false_of_exact read exact
  have own : (parse pattern false).toOption = some key := by rw [plain]; rfl
  have undotted := dropTrailingDot_of_readName (parse_false_eq_ok_iff.1 plain).1
  exact ⟨(candidate?_eq undotted).trans own, (candidate?_concat_dot pattern).trans own⟩

/-- A bound name is found under every text that has its key. -/
theorem resolve?_of_bound {α : Type} {binds : List (String × α)} {pattern : String} {value : α}
    {key : Key} (mem : (pattern, value) ∈ binds) (read : parse pattern true = .ok key)
    (exact : key.wildcard = false) :
    ∃ first, HostTable.bound binds key.hostText = some first ∧
      ∀ host, candidate? host = some key →
        (HostTable.ofBinds binds).resolve? host = some ⟨key, first⟩ := by
  have pair : (key, value) ∈ Trie.readPairs (parse · true) binds :=
    Trie.mem_readPairs.2 ⟨pattern, mem, read⟩
  have isBound : ((HostTable.ofBinds binds).trie.find? key).isSome := by
    rw [HostTable.trie_ofBinds, Trie.find?_ofAttempts]
    exact List.lookup_isSome_iff.2 ⟨(key, value), pair, by simp⟩
  obtain ⟨first, hf⟩ := Option.isSome_iff_exists.1 isBound
  refine ⟨first, (HostTable.bound_hostText binds (labels_of_parse read)).trans hf, ?_⟩
  intro host found
  rw [HostTable.resolve?, found, Option.bind_some]
  exact HostTable.best?_of_find? (HostTable.valid_ofBinds binds).trie exact hf

/-- The canonical text of a pattern's key is read as this key, and different keys have different
texts. A presented name has a key exactly if without one dot at its end it is a pattern where no
wildcards are allowed, and then the pattern's key, which is no wildcard. So a name that is bound
exactly is found under its own key: as it was written, with a dot at the end and by its canonical
text. -/
theorem host_texts_read_back :
    (∀ pattern allowWildcard key, parse pattern allowWildcard = .ok key →
        parse key.hostText true = .ok key) ∧
      (∀ pattern pattern' allowWildcard allowWildcard' key key',
        parse pattern allowWildcard = .ok key → parse pattern' allowWildcard' = .ok key' →
          key ≠ key' → key.hostText ≠ key'.hostText) ∧
      (∀ stem, candidate? (stem ++ ".") = (parse stem false).toOption) ∧
      (∀ host, (∀ stem, host ≠ stem ++ ".") → candidate? host = (parse host false).toOption) ∧
      (∀ host key, candidate? host = some key → key.wildcard = false) ∧
      ∀ (α : Type) (binds : List (String × α)) pattern value key, (pattern, value) ∈ binds →
        parse pattern true = .ok key → key.wildcard = false →
          ∃ first, HostTable.bound binds key.hostText = some first ∧
            ∀ host ∈ [pattern, pattern ++ ".", key.hostText],
              (HostTable.ofBinds binds).resolve? host = some ⟨key, first⟩ := by
  refine ⟨fun pattern allowWildcard key read => parse_hostText (labels_of_parse read), ?_,
    candidate?_concat_dot, fun host => candidate?_of_no_dot,
    fun host key found => (candidate?_eq_some_iff.1 found).2.1, ?_⟩
  · intro pattern pattern' allowWildcard allowWildcard' key key' read read' different same
    exact different ((hostText_inj (labels_of_parse read) (labels_of_parse read')).1 same)
  · intro α binds pattern value key mem read exact
    obtain ⟨first, isBound, found⟩ := resolve?_of_bound mem read exact
    have written := candidate?_of_parse read exact
    have canonical := candidate?_of_parse (parse_hostText (labels_of_parse read)) exact
    refine ⟨first, isBound, fun host hh => found host ?_⟩
    simp only [List.mem_cons, List.not_mem_nil, or_false] at hh
    rcases hh with rfl | rfl | rfl
    · exact written.1
    · exact written.2
    · exact canonical.1

/-- The name is found in spite of the wildcards around it, with the first of its two values. -/
theorem host_texts_read_back_capitals :
    let binds := [("*", 0), ("*.Example", 1), ("A.Example", 2), ("a.example", 3)]
    parse "A.Example" true = .ok ⟨["example", "a"], false⟩ ∧
      parse (⟨["example", "a"], false⟩ : Key).hostText true = .ok ⟨["example", "a"], false⟩ ∧
      (⟨["example", "a"], false⟩ : Key).hostText ≠ (⟨["example", "a"], true⟩ : Key).hostText ∧
      candidate? "a.example" = some ⟨["example", "a"], false⟩ ∧
      (HostTable.ofBinds binds).resolve? "A.Example." = some ⟨⟨["example", "a"], false⟩, 2⟩ := by
  intro binds
  have read : parse "A.Example" true = .ok ⟨["example", "a"], false⟩ := rfl
  have above : parse "*.a.example" true = .ok ⟨["example", "a"], true⟩ := rfl
  have undotted (stem : String) : "a.example" ≠ stem ++ "." := by
    intro same
    have last := congrArg (fun text : String => text.toList.getLast?) same
    simp at last
  obtain ⟨back, apart, -, agree, -, own⟩ := host_texts_read_back
  obtain ⟨first, isBound, found⟩ := own Nat binds "A.Example" 2 _ (by decide) read rfl
  obtain rfl : 2 = first := Option.some_inj.1 isBound
  exact ⟨read, back _ _ _ read, apart _ _ _ _ _ _ read above (by decide), agree _ undotted,
    found _ (by decide)⟩

end Hostname

end Turnstile.Routing
