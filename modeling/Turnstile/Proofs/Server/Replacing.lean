import Mathlib.Data.List.Forall2
import Mathlib.Data.List.Induction
import Turnstile.Server.Reload

/-!
# What a reload puts in place

The tables of a running server are cells that are written one at a time, so what is in place is told
cell by cell. What a cell holds is given as the write that puts it there (`Running.content`). After
any writes a cell holds what was written to it last (`content_applyAll`), whatever was written to
the others in between. A replacement writes every cell once (`lastTo_writes`); if all cells hold
what it has written, the server carries the tables of the settings that it was worked out from
(`carries_of_content`).
-/

namespace Turnstile.Server

open Site

inductive Cell where
  | offering (index : Nat)
  | dispatcher
  | settings
  | listing
deriving DecidableEq, Repr

namespace Write

def cell : Write → Cell
  | offering index _ => .offering index
  | dispatcher _ => .dispatcher
  | settings _ => .settings
  | listing _ => .listing

/-- The last of some writes that goes to a cell. -/
def lastTo (c : Cell) (writes : List Write) : Option Write :=
  (writes.filter fun w => w.cell = c).getLast?

theorem lastTo_append (c : Cell) (earlier later : List Write) :
    lastTo c (earlier ++ later) = (lastTo c later).or (lastTo c earlier) := by
  unfold lastTo
  rw [List.filter_append, List.getLast?_append]

theorem lastTo_singleton (c : Cell) (w : Write) :
    lastTo c [w] = if w.cell = c then some w else none := by
  unfold lastTo
  by_cases here : w.cell = c <;> simp [here]

end Write

namespace Running

open Write (lastTo)

/-- What a cell holds, as the write that puts it there. A listener that the server does not have has
an empty cell. -/
def content (r : Running) : Cell → Option Write
  | .offering i => r.offerings[i]?.map fun o => .offering i o.table
  | .dispatcher => some (.dispatcher r.dispatcher)
  | .settings => some (.settings r.settings)
  | .listing => some (.listing r.listing)

theorem content_offering (r : Running) (i : Nat) :
    r.content (.offering i) = r.offerings[i]?.map fun o => .offering i o.table := rfl

/-- A write goes to its own cell and leaves the others alone. -/
theorem content_apply (r : Running) (w : Write) (c : Cell) :
    (r.apply w).content c =
      if w.cell = c then (r.content c).map fun _ => w else r.content c := by
  cases w with
  | offering index table =>
    cases c with
    | offering i =>
      by_cases here : index = i
      · subst here
        cases present : r.offerings[index]? <;> simp [apply, content, Write.cell, present]
      · simp [apply, content, Write.cell, here]
    | dispatcher | settings | listing => rfl
  | dispatcher _ | settings _ | listing _ => cases c <;> rfl

/-- Writes go to cells that are there, so no cell is added and none is lost. -/
theorem content_applyAll (r : Running) (writes : List Write) (c : Cell) :
    (r.applyAll writes).content c =
      match lastTo c writes with
      | none => r.content c
      | some w => (r.content c).map fun _ => w := by
  induction writes using List.reverseRecOn with
  | nil => rfl
  | append_singleton earlier w ih =>
    have one : r.applyAll (earlier ++ [w]) = (r.applyAll earlier).apply w := List.foldl_append
    rw [one, content_apply, ih, Write.lastTo_append, Write.lastTo_singleton]
    by_cases here : w.cell = c
    · rw [if_pos here, if_pos here, Option.some_or]
      cases lastTo c earlier with
      | none => rfl
      | some _ => exact Option.map_map _ _ _
    · rw [if_neg here, if_neg here, Option.none_or]

/-- The names of the listeners are not among what is written. -/
theorem names_apply (r : Running) (w : Write) : (r.apply w).names = r.names := by
  cases w with
  | offering index table =>
    apply List.ext_getElem?
    intro i
    by_cases here : index = i <;>
      cases present : r.offerings[i]? <;>
        simp [names, apply, here, present]
  | dispatcher _ | settings _ | listing _ => rfl

theorem names_applyAll (r : Running) (writes : List Write) :
    (r.applyAll writes).names = r.names := by
  unfold applyAll
  induction writes generalizing r with
  | nil => rfl
  | cons w rest ih => exact (ih _).trans (names_apply r w)

end Running

namespace Replacement

open Write (lastTo)

def content (p : Replacement) : Cell → Option Write
  | .offering i => p.tables[i]?.map (.offering i)
  | .dispatcher => some (.dispatcher p.dispatcher)
  | .settings => some (.settings p.settings)
  | .listing => some (.listing p.listing)

theorem content_offering (p : Replacement) (i : Nat) :
    p.content (.offering i) = p.tables[i]?.map (.offering i) := rfl

theorem lastTo_mapIdx (tables : List CertificateTable) (c : Cell) :
    lastTo c (tables.mapIdx .offering) =
      match c with
      | .offering i => tables[i]?.map (.offering i)
      | _ => none := by
  induction tables using List.reverseRecOn with
  | nil => cases c <;> rfl
  | append_singleton front table ih =>
    rw [List.mapIdx_append, Write.lastTo_append, ih]
    cases c with
    | offering i =>
      simp only [List.mapIdx_cons, List.mapIdx_nil, Write.lastTo_singleton, Write.cell,
        Nat.zero_add, Cell.offering.injEq]
      by_cases last : front.length = i
      · subst last
        simp
      · rw [if_neg last, Option.none_or]
        by_cases shorter : i < front.length
        · rw [List.getElem?_append_left shorter]
        · rw [List.getElem?_append_right (by omega), List.getElem?_eq_none (by omega),
            List.getElem?_eq_none (by simp only [List.length_singleton]; omega)]
    | dispatcher | settings | listing => simp [Write.lastTo_singleton, Write.cell]

/-- A replacement writes a cell once. -/
theorem lastTo_writes (p : Replacement) (c : Cell) : lastTo c p.writes = p.content c := by
  unfold writes
  rw [Write.lastTo_append, lastTo_mapIdx]
  cases c <;> simp [lastTo, Write.cell, content]

end Replacement

theorem exists_ok_of_isSome {ε α : Type} {x : Except ε α} (h : x.toOption.isSome) :
    ∃ a, x = .ok a := by
  cases x with
  | error e => cases h
  | ok a => exact ⟨a, rfl⟩

/-- What a listener with these names gets of the certificates of some tables. -/
def Gets (t : Tables) (serverNames : Option (List String)) (table : CertificateTable) : Prop :=
  offered t.certificates serverNames = .ok table

/-- The server answers from the tables of some settings, with listeners of these names, and shows
these settings. -/
structure Running.Carries (r : Running) (names : List (Option (List String))) (s : Settings)
    (t : Tables) : Prop where
  dispatcher : r.dispatcher = t.dispatcher
  offerings : List.Forall₂ (fun n o => o.serverNames = n ∧ Gets t n o.table) names r.offerings
  settings : r.settings = s
  listing : r.listing = t.listing

theorem Running.Carries.names_eq {r : Running} {names : List (Option (List String))} {s : Settings}
    {t : Tables} (carries : r.Carries names s t) : r.names = names := by
  have same : List.Forall₂ (· = ·) names r.names :=
    List.forall₂_map_right_iff.2 (carries.offerings.imp fun _ _ h => h.1.symm)
  rw [List.forall₂_eq_eq_eq] at same
  exact same.symm

namespace Offering

theorem scopeAll_eq_ok_iff {t : Tables} {names : List (Option (List String))}
    {tables : List CertificateTable} :
    scopeAll t.certificates names = .ok tables ↔ List.Forall₂ (Gets t) names tables := by
  induction names generalizing tables with
  | nil => simp [scopeAll, eq_comm]
  | cons n rest ih =>
    unfold scopeAll
    cases first : offered t.certificates n with
    | error e => simp [List.forall₂_cons_left_iff, Gets, first]
    | ok table =>
      have got (table' : CertificateTable) : Gets t n table' ↔ table' = table := by
        rw [Gets, first, Except.ok.injEq, eq_comm]
      simp only [List.forall₂_cons_left_iff, got]
      cases others : scopeAll t.certificates rest with
      | error e =>
        have failed (us : List CertificateTable) : ¬ List.Forall₂ (Gets t) rest us := by
          intro all
          rw [← ih, others] at all
          cases all
        simp [failed]
      | ok tables' =>
        have found (us : List CertificateTable) :
            List.Forall₂ (Gets t) rest us ↔ us = tables' := by
          rw [← ih, others, Except.ok.injEq, eq_comm]
        simp [found, eq_comm]

end Offering

namespace Replacement

variable {files : FileStore} {names : List (Option (List String))} {s : Settings}

/-- A replacement can be worked out if the tables can be built and every listener gets a part. -/
theorem ofSettings_eq_ok_iff {p : Replacement} :
    ofSettings files names s = .ok p ↔
      ∃ t, Tables.build files s = .ok t ∧ List.Forall₂ (Gets t) names p.tables ∧
        p = ⟨p.tables, t.dispatcher, s, t.listing⟩ := by
  unfold ofSettings
  cases built : Tables.build files s with
  | error e => simp
  | ok t =>
    simp only [Except.ok.injEq, exists_eq_left', ← Offering.scopeAll_eq_ok_iff]
    cases parts : Offering.scopeAll t.certificates names with
    | error e => simp
    | ok tables =>
      simp only [Except.ok.injEq]
      constructor
      · rintro rfl
        exact ⟨rfl, rfl⟩
      · rintro ⟨same, whole⟩
        rw [same]
        exact whole.symm

/-- If every cell holds what a replacement writes to it, the tables of its settings are in place. -/
theorem carries_of_content {p : Replacement} {r : Running} {t : Tables}
    (parts : List.Forall₂ (Gets t) names p.tables)
    (whole : p = ⟨p.tables, t.dispatcher, s, t.listing⟩) (same : r.names = names)
    (held : ∀ c, r.content c = p.content c) : r.Carries names s t := by
  have dispatcher := Write.dispatcher.inj (Option.some.inj (held .dispatcher))
  have settings := Write.settings.inj (Option.some.inj (held .settings))
  have listing := Write.listing.inj (Option.some.inj (held .listing))
  have tables : r.offerings.map (·.table) = p.tables := by
    apply List.ext_getElem?
    intro i
    have injective : Function.Injective (Write.offering i) := fun _ _ h => (Write.offering.inj h).2
    apply Option.map_injective injective
    rw [List.getElem?_map, Option.map_map]
    exact held (.offering i)
  rw [whole] at dispatcher settings listing
  refine ⟨dispatcher, ?_, settings, listing⟩
  rw [← tables, ← same, Running.names, List.forall₂_map_left_iff, List.forall₂_map_right_iff,
    List.forall₂_same] at parts
  rw [← same, Running.names, List.forall₂_map_left_iff, List.forall₂_same]
  intro o mem
  exact ⟨rfl, parts o mem⟩

theorem content_of_carries {p : Replacement} {r : Running} {t : Tables}
    (parts : List.Forall₂ (Gets t) names p.tables)
    (whole : p = ⟨p.tables, t.dispatcher, s, t.listing⟩) (carries : r.Carries names s t)
    (c : Cell) : r.content c = p.content c := by
  cases c with
  | offering i =>
    have one : Relator.RightUnique (Gets t) := fun _ _ _ h h' => Except.ok.inj (h.symm.trans h')
    have held : List.Forall₂ (Gets t) names (r.offerings.map (·.table)) :=
      List.forall₂_map_right_iff.2 (carries.offerings.imp fun _ _ h => h.2)
    have tables : r.offerings.map (·.table) = p.tables := List.right_unique_forall₂' one held parts
    rw [Running.content_offering, content_offering, ← tables, List.getElem?_map, Option.map_map]
    rfl
  | dispatcher | settings | listing =>
    rw [whole]
    simp [Running.content, content, carries.dispatcher, carries.settings, carries.listing]

end Replacement

end Turnstile.Server
