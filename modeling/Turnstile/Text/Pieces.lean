/-!
# Text cut at a separator

`pieces` cuts a text at every occurrence of one character and `glue` puts the pieces back with that
character between them. A text always has at least one piece, so `glue_pieces` holds without a
hypothesis, and pieces that do not contain the separator are found again (`pieces_glue`). A text
with a separator in it is cut there and on both sides of it (`pieces_append_cons`).
-/

namespace Turnstile.Text

/-- The stretches of a text between occurrences of `sep`, in order. The empty text has one empty
stretch. -/
def pieces (sep : Char) : List Char → List (List Char)
  | [] => [[]]
  | c :: rest =>
    if c = sep then [] :: pieces sep rest
    else match pieces sep rest with
      | [] => [[c]]
      | piece :: more => (c :: piece) :: more

/-- The pieces one after another with `sep` between neighbours. -/
def glue (sep : Char) : List (List Char) → List Char
  | [] => []
  | [piece] => piece
  | piece :: next :: more => piece ++ sep :: glue sep (next :: more)

theorem pieces_ne_nil (sep : Char) (text : List Char) : pieces sep text ≠ [] := by
  cases text with
  | nil => simp [pieces]
  | cons c rest =>
    unfold pieces
    split
    · simp
    · split <;> simp

theorem glue_cons_cons (sep c : Char) (piece : List Char) (more : List (List Char)) :
    glue sep ((c :: piece) :: more) = c :: glue sep (piece :: more) := by
  cases more <;> simp [glue]

theorem glue_pieces (sep : Char) (text : List Char) : glue sep (pieces sep text) = text := by
  induction text with
  | nil => rfl
  | cons c rest ih =>
    unfold pieces
    split
    case isTrue h =>
      cases hp : pieces sep rest with
      | nil => exact absurd hp (pieces_ne_nil sep rest)
      | cons piece more => rw [hp] at ih; simp [glue, ih, h]
    case isFalse h =>
      split
      case h_1 hp => exact absurd hp (pieces_ne_nil sep rest)
      case h_2 piece more hp => rw [hp] at ih; rw [glue_cons_cons, ih]

/-- No piece contains the separator. -/
theorem not_mem_of_mem_pieces {sep : Char} {text piece : List Char} (h : piece ∈ pieces sep text) :
    sep ∉ piece := by
  induction text generalizing piece with
  | nil => simp_all [pieces]
  | cons c rest ih =>
    unfold pieces at h
    split at h
    case isTrue =>
      rcases List.mem_cons.1 h with rfl | h
      · simp
      · exact ih h
    case isFalse hc =>
      split at h
      case h_1 hp => exact absurd hp (pieces_ne_nil sep rest)
      case h_2 first more hp =>
        rcases List.mem_cons.1 h with rfl | h
        · have := ih (hp ▸ List.mem_cons_self : first ∈ pieces sep rest)
          simp [this, Ne.symm hc]
        · exact ih (hp ▸ List.mem_cons_of_mem _ h)

theorem pieces_of_not_mem {sep : Char} {piece : List Char} (h : sep ∉ piece) :
    pieces sep piece = [piece] := by
  induction piece with
  | nil => rfl
  | cons c rest ih =>
    have hc : c ≠ sep := fun e => h (e ▸ List.mem_cons_self)
    have hr : sep ∉ rest := fun m => h (List.mem_cons_of_mem _ m)
    simp [pieces, hc, ih hr]

/-- A separator cuts a text whatever stands on its two sides. -/
theorem pieces_append_cons (sep : Char) (front rest : List Char) :
    pieces sep (front ++ sep :: rest) = pieces sep front ++ pieces sep rest := by
  induction front with
  | nil => simp [pieces]
  | cons c more ih =>
    rw [List.cons_append, pieces, pieces, ih]
    split
    case isTrue => rfl
    case isFalse =>
      cases hp : pieces sep more with
      | nil => exact absurd hp (pieces_ne_nil sep more)
      | cons piece others => rfl

theorem pieces_append_sep {sep : Char} {piece : List Char} (h : sep ∉ piece) (rest : List Char) :
    pieces sep (piece ++ sep :: rest) = piece :: pieces sep rest := by
  rw [pieces_append_cons, pieces_of_not_mem h]
  rfl

theorem pieces_glue {sep : Char} {ps : List (List Char)} (hne : ps ≠ [])
    (h : ∀ p ∈ ps, sep ∉ p) : pieces sep (glue sep ps) = ps := by
  induction ps with
  | nil => exact absurd rfl hne
  | cons piece more ih =>
    cases more with
    | nil => exact pieces_of_not_mem (h piece List.mem_cons_self)
    | cons next rest =>
      rw [glue, pieces_append_sep (h piece List.mem_cons_self),
        ih (by simp) (fun p hp => h p (List.mem_cons_of_mem _ hp))]

/-- A separator stands before every piece but the first. -/
theorem glue_cons (sep : Char) (piece : List Char) (more : List (List Char)) :
    glue sep (piece :: more) = piece ++ more.flatMap (sep :: ·) := by
  induction more generalizing piece with
  | nil => simp [glue]
  | cons next rest ih => rw [glue, ih, List.flatMap_cons, List.cons_append]

theorem glue_append {sep : Char} {front rest : List (List Char)} (hf : front ≠ [])
    (hr : rest ≠ []) : glue sep (front ++ rest) = glue sep front ++ sep :: glue sep rest := by
  obtain ⟨piece, more, rfl⟩ := List.exists_cons_of_ne_nil hf
  obtain ⟨next, others, rfl⟩ := List.exists_cons_of_ne_nil hr
  simp [glue_cons]

theorem eq_or_mem_of_mem_glue {sep c : Char} {ps : List (List Char)} (h : c ∈ glue sep ps) :
    c = sep ∨ ∃ p ∈ ps, c ∈ p := by
  cases ps with
  | nil => simp [glue] at h
  | cons piece more =>
    rw [glue_cons, List.mem_append, List.mem_flatMap] at h
    rcases h with h | ⟨p, hp, h⟩
    · exact .inr ⟨piece, List.mem_cons_self, h⟩
    · rcases List.mem_cons.1 h with rfl | h
      · exact .inl rfl
      · exact .inr ⟨p, List.mem_cons_of_mem _ hp, h⟩

/-- Characters may be replaced before or after a text is cut, if the separator and it alone is
replaced by itself. -/
theorem pieces_map {sep : Char} {f : Char → Char} (hf : ∀ c, f c = sep ↔ c = sep)
    (text : List Char) : pieces sep (text.map f) = (pieces sep text).map (List.map f) := by
  induction text with
  | nil => rfl
  | cons c rest ih =>
    rw [List.map_cons, pieces, pieces, ih]
    simp only [hf]
    split
    case isTrue => rfl
    case isFalse => cases pieces sep rest <;> rfl

theorem intercalate_eq_glue (sep : Char) (ps : List (List Char)) :
    [sep].intercalate ps = glue sep ps := by
  induction ps with
  | nil => rfl
  | cons piece more ih =>
    cases more with
    | nil => simp [glue]
    | cons next rest => rw [List.intercalate_cons_cons, ih, glue, List.append_assoc]; rfl

end Turnstile.Text
