import Turnstile.Proofs.Routing.Arena

/-!
# Additions to a trie

A run of additions, taken or refused, is described by what `find?` answers: the first value that was
added under each key (`find?_ofAttempts`). A refused addition changes nothing at all, although it
makes its path before it looks at the slot: if the slot is filled, the path was there
(`attempt_refused`). Binding patterns one after another is such a run, of the keys that can be read
from them (`trie_foldl_bind`).
-/

namespace Turnstile.Routing

namespace Trie

variable {α : Type}

/-! ### One more node -/

section Sprout

variable {nodes : Array (Node α)} {start : Nat} {segment : String}

theorem getElem?_sprout (i : Nat) :
    (sprout nodes start segment)[i]? =
      if i = nodes.size then some {}
      else if i = start then nodes[i]?.map (·.link segment nodes.size) else nodes[i]? := by
  simp only [sprout, Array.getElem?_push, Array.size_modify, Array.getElem?_modify]
  split
  · rfl
  · by_cases h : i = start
    · simp [h]
    · simp [h, Ne.symm h]

theorem slot?_sprout (i : Nat) (wildcard : Bool) :
    slot? (sprout nodes start segment) i wildcard = slot? nodes i wildcard := by
  simp only [slot?, getElem?_sprout]
  split
  · next h =>
    subst i
    cases wildcard <;> simp [Node.slot]
  · split
    · cases nodes[i]? <;> simp [Node.link, Node.slot]
    · rfl

theorem step?_sprout (hs : start < nodes.size) (new : step? nodes start segment = none)
    (i : Nat) (s : String) :
    step? (sprout nodes start segment) i s =
      if i = start ∧ s = segment then some nodes.size else step? nodes i s := by
  simp only [step?, getElem?_sprout]
  by_cases hi : i = nodes.size
  · have : ¬ nodes.size = start := by omega
    simp [hi, this, Node.child?]
  · by_cases h : i = start
    · subst i
      have hn : nodes[start]? = some nodes[start] := Array.getElem?_eq_getElem hs
      have new' : nodes[start].children.lookup segment = none := by
        simpa [step?, hn, Node.child?] using new
      simp [hi, hn, Node.child?, Node.link, Node.lookup_insertChild _ new']
    · simp [hi, h]

theorem extends_sprout (hs : start < nodes.size) (new : step? nodes start segment = none) :
    Extends nodes (sprout nodes start segment) where
  link {i s j} h := by
    rw [step?_sprout hs new]
    split
    · next same =>
      obtain ⟨rfl, rfl⟩ := same
      simp [new] at h
    · exact h
  slot := slot?_sprout
  size := by simp [sprout]

theorem Arena.sprout (arena : Arena nodes) (hs : start < nodes.size)
    (new : step? nodes start segment = none) : Arena (sprout nodes start segment) where
  root := by simp [Trie.sprout]
  ascending {i node} h := by
    rw [getElem?_sprout] at h
    split at h
    · cases h
      simp
    · split at h
      · next hi =>
        subst i
        obtain ⟨old, ho, rfl⟩ := Option.map_eq_some_iff.1 h
        have new' : old.children.lookup segment = none := by
          simpa [step?, ho, Node.child?] using new
        exact Node.insertChild_ascending _ new' (arena.ascending ho)
      · exact arena.ascending h
  forward {i s j} h := by
    rw [step?_sprout hs new] at h
    have size : (Trie.sprout nodes start segment).size = nodes.size + 1 := by simp [Trie.sprout]
    split at h
    · next same =>
      cases h
      exact ⟨same.1 ▸ hs, by omega⟩
    · have := arena.forward h
      omega
  oneParent {i i' s s' j} h h' := by
    rw [step?_sprout hs new] at h h'
    -- The new node is not the child of an old link, which leads below `nodes.size`.
    split at h <;> split at h'
    · next same same' => exact ⟨same.1.trans same'.1.symm, same.2.trans same'.2.symm⟩
    · cases h
      exact absurd (arena.forward h').2 (Nat.lt_irrefl _)
    · cases h'
      exact absurd (arena.forward h).2 (Nat.lt_irrefl _)
    · exact arena.oneParent h h'
  parent {j} hj hsize := by
    have size : (Trie.sprout nodes start segment).size = nodes.size + 1 := by simp [Trie.sprout]
    by_cases last : j = nodes.size
    · exact ⟨start, segment, by simp [step?_sprout hs new, last]⟩
    · obtain ⟨i, s, h⟩ := arena.parent hj (by omega)
      exact ⟨i, s, (extends_sprout hs new).link h⟩
  spelled {i wildcard b} h := by
    rw [slot?_sprout] at h
    obtain ⟨hflag, hpath⟩ := arena.spelled h
    exact ⟨hflag, (extends_sprout hs new).walk hpath⟩

end Sprout

/-! ### A whole path -/

theorem grow_of_walk? {nodes : Array (Node α)} {start last : Nat} {segments : List String}
    (h : walk? nodes start segments = some last) : grow nodes start segments = (nodes, last) := by
  induction segments generalizing start with
  | nil =>
    cases h
    rfl
  | cons segment rest ih =>
    rw [walk?_cons] at h
    obtain ⟨child, hc, hr⟩ := Option.bind_eq_some_iff.1 h
    simp [grow, hc, ih hr]

/-- Growing makes the path and keeps what was there. -/
theorem grow_extends {nodes : Array (Node α)} (arena : Arena nodes) {start : Nat}
    (hs : start < nodes.size) (segments : List String) :
    Arena (grow nodes start segments).1 ∧ Extends nodes (grow nodes start segments).1 ∧
      walk? (grow nodes start segments).1 start segments = some (grow nodes start segments).2 := by
  induction segments generalizing nodes start with
  | nil => exact ⟨arena, .refl nodes, rfl⟩
  | cons segment rest ih =>
    cases hstep : step? nodes start segment with
    | some child =>
      obtain ⟨valid, kept, path⟩ := ih arena (arena.forward hstep).2
      simp only [grow, hstep]
      refine ⟨valid, kept, ?_⟩
      rw [walk?_cons, kept.link hstep]
      exact path
    | none =>
      have one := extends_sprout hs hstep
      have hlast : nodes.size < (sprout nodes start segment).size := by simp [sprout]
      obtain ⟨valid, kept, path⟩ := ih (arena.sprout hs hstep) hlast
      have link : step? (sprout nodes start segment) start segment = some nodes.size := by
        simp [step?_sprout hs hstep]
      simp only [grow, hstep]
      refine ⟨valid, one.trans kept, ?_⟩
      rw [walk?_cons, kept.link link]
      exact path

/-! ### A filled slot -/

section Fill

variable {nodes : Array (Node α)} {last : Nat} {b : Binding α}

theorem getElem?_fill (i : Nat) :
    (nodes.modify last (·.fill b))[i]? =
      if i = last then nodes[i]?.map (·.fill b) else nodes[i]? := by
  rw [Array.getElem?_modify]
  by_cases h : i = last
  · simp [h]
  · simp [h, Ne.symm h]

@[simp] theorem step?_fill (i : Nat) (segment : String) :
    step? (nodes.modify last (·.fill b)) i segment = step? nodes i segment := by
  simp only [step?, getElem?_fill]
  split
  · cases nodes[i]? with
    | none => rfl
    | some node => cases hw : b.key.wildcard <;> simp [Node.fill, Node.child?, hw]
  · rfl

@[simp] theorem walk?_fill (start : Nat) (p : List String) :
    walk? (nodes.modify last (·.fill b)) start p = walk? nodes start p := by
  induction p generalizing start with
  | nil => rfl
  | cons segment rest ih => simp [walk?_cons, ih]

theorem slot?_fill (hl : last < nodes.size) (i : Nat) (wildcard : Bool) :
    slot? (nodes.modify last (·.fill b)) i wildcard =
      if i = last ∧ wildcard = b.key.wildcard then some b else slot? nodes i wildcard := by
  simp only [slot?, getElem?_fill]
  by_cases hi : i = last
  · subst i
    rw [Array.getElem?_eq_getElem hl]
    cases hw : b.key.wildcard <;> cases wildcard <;> simp [Node.fill, Node.slot, hw]
  · simp [hi]

theorem Arena.fill (arena : Arena nodes) (path : walk? nodes 0 b.key.segments = some last) :
    Arena (nodes.modify last (·.fill b)) where
  root := by simpa using arena.root
  ascending {i node} h := by
    rw [getElem?_fill] at h
    split at h
    · obtain ⟨old, ho, rfl⟩ := Option.map_eq_some_iff.1 h
      have same : (old.fill b).children = old.children := by
        cases hw : b.key.wildcard <;> simp [Node.fill, hw]
      exact same ▸ arena.ascending ho
    · exact arena.ascending h
  forward h := by simpa using arena.forward (by simpa using h)
  oneParent h h' := arena.oneParent (by simpa using h) (by simpa using h')
  parent hj hsize := by simpa using arena.parent hj (by simpa using hsize)
  spelled {i wildcard b'} h := by
    rw [slot?_fill (arena.walk_lt arena.root path)] at h
    split at h
    · next here =>
      obtain ⟨rfl, rfl⟩ := here
      cases h
      exact ⟨rfl, by simpa using path⟩
    · simpa using arena.spelled h

end Fill

/-! ### What a trie holds -/

def binding? (t : Trie α) (key : Key) : Option (Binding α) :=
  (walk? t.nodes 0 key.segments).bind (slot? t.nodes · key.wildcard)

theorem find?_eq (t : Trie α) (key : Key) : t.find? key = (t.binding? key).map (·.value) := rfl

theorem binding?_eq_some_iff {t : Trie α} (arena : Arena t.nodes) {key : Key} {b : Binding α} :
    t.binding? key = some b ↔ b.key = key ∧ t.find? key = some b.value := by
  have own {b' : Binding α} (h : t.binding? key = some b') : b'.key = key := by
    obtain ⟨last, hw, hb⟩ := Option.bind_eq_some_iff.1 h
    exact arena.key_eq hw hb
  constructor
  · intro h
    exact ⟨own h, by simp [find?_eq, h]⟩
  · rintro ⟨hk, hv⟩
    obtain ⟨b', hb', hval⟩ := Option.map_eq_some_iff.1 hv
    have hk' : b'.key = b.key := (own hb').trans hk.symm
    have same : b' = b := by
      cases b
      cases b'
      simp_all
    exact same ▸ hb'

theorem binding?_key_iff {t : Trie α} (arena : Arena t.nodes) {b : Binding α} :
    t.binding? b.key = some b ↔ t.find? b.key = some b.value := by
  rw [binding?_eq_some_iff arena]
  exact and_iff_right rfl

/-- What an attempt does, seen through `find?`: a key that is new gets the value. -/
theorem attempt_spec {t : Trie α} (arena : Arena t.nodes) (key : Key) (value : α) :
    (t.attempt key value).1 = (t.find? key).isNone ∧ Arena (t.attempt key value).2.nodes ∧
      ∀ k, (t.attempt key value).2.find? k =
        (t.find? k).or (if k = key then some value else none) := by
  obtain ⟨grown, kept, path⟩ := grow_extends arena arena.root key.segments
  generalize hg : grow t.nodes 0 key.segments = g at grown kept path
  obtain ⟨nodes, last⟩ := g
  -- A slot of the grown table that is filled was filled before, so its path was there.
  have reached {k : Key} :
      (walk? nodes 0 k.segments).bind (slot? nodes · k.wildcard) = t.binding? k := by
    ext b
    constructor
    · intro h
      obtain ⟨i, hw, hb⟩ := Option.bind_eq_some_iff.1 h
      have hk := grown.key_eq hw hb
      rw [kept.slot] at hb
      have old := (arena.spelled hb).2
      rw [hk] at old
      exact Option.bind_eq_some_iff.2 ⟨i, old, hb⟩
    · intro h
      obtain ⟨i, hw, hb⟩ := Option.bind_eq_some_iff.1 h
      exact Option.bind_eq_some_iff.2 ⟨i, kept.walk hw, by rwa [kept.slot]⟩
  have here : slot? nodes last key.wildcard = t.binding? key := by
    rw [← reached, path]
    rfl
  simp only [attempt, hg, here]
  cases hb : t.binding? key with
  | some b =>
    refine ⟨by simp [find?_eq, hb], grown, fun k => ?_⟩
    have : (Trie.mk nodes t.size).find? k = t.find? k := by
      rw [find?_eq, find?_eq, ← reached]
      rfl
    rw [this]
    split
    · next same => simp [same, find?_eq, hb]
    · simp
  | none =>
    have hl := grown.walk_lt grown.root path
    refine ⟨by simp [find?_eq, hb], grown.fill path, fun k => ?_⟩
    simp only [find?_eq, binding?, walk?_fill, slot?_fill hl]
    by_cases same : k = key
    · subst k
      have none : t.binding? key = none := hb
      simp only [binding?] at none
      simp [path, none]
    · simp only [same, if_false, Option.or_none]
      rw [← binding?, ← reached]
      congr 1
      refine Option.bind_congr fun i hi => ?_
      have : ¬ (i = last ∧ k.wildcard = key.wildcard) := by
        rintro ⟨rfl, hflag⟩
        have := grown.path_unique hi path
        exact same (by cases k; cases key; simp_all)
      simp [this]

/-- A refused addition leaves the trie as it was, nodes and all. -/
theorem attempt_refused {t : Trie α} {key : Key} {v : α} (bound : t.find? key = some v)
    (value : α) : t.attempt key value = (false, t) := by
  obtain ⟨b, hb, -⟩ := Option.map_eq_some_iff.1 bound
  obtain ⟨last, hw, hs⟩ := Option.bind_eq_some_iff.1 hb
  simp [attempt, grow_of_walk? hw, hs]

theorem insert?_eq {t : Trie α} (arena : Arena t.nodes) (key : Key) (value : α) :
    t.insert? key value =
      if (t.find? key).isSome then none else some (t.attempt key value).2 := by
  have taken := (attempt_spec arena key value).1
  unfold insert?
  cases ha : t.attempt key value with
  | mk done t' =>
    rw [ha] at taken
    cases hk : t.find? key <;> simp [hk] at taken <;> simp [taken]

/-- What a caller has who keeps the trie when the key is bound. -/
theorem insert?_getD {t : Trie α} (arena : Arena t.nodes) (key : Key) (value : α) :
    (t.insert? key value).getD t = (t.attempt key value).2 := by
  rw [insert?_eq arena]
  cases hk : t.find? key with
  | some v => simp [attempt_refused hk]
  | none => rfl

theorem add_eq {t : Trie α} (arena : Arena t.nodes) (key : Key) (value : α) :
    t.add key value =
      if (t.find? key).isSome then .error (.duplicateBinding (key.render .sequence))
      else .ok (t.attempt key value).2 := by
  rw [add, insert?_eq arena]
  cases t.find? key <;> rfl

/-! ### Runs of additions -/

/-- The trie after a run of additions, of which any may be refused. -/
def ofAttempts (pairs : List (Key × α)) : Trie α :=
  pairs.foldl (fun t pair => (t.attempt pair.1 pair.2).2) .empty

theorem find?_empty (key : Key) : (empty : Trie α).find? key = none := by
  rw [find?_eq, Option.map_eq_none_iff, binding?, Option.bind_eq_none_iff]
  intro i _
  simp only [empty, slot?]
  cases i with
  | zero => cases key.wildcard <;> rfl
  | succ i => rfl

theorem foldl_attempt {t : Trie α} (arena : Arena t.nodes) (pairs : List (Key × α)) :
    let t' := pairs.foldl (fun t pair => (t.attempt pair.1 pair.2).2) t
    Arena t'.nodes ∧ ∀ key, t'.find? key = (t.find? key).or (pairs.lookup key) := by
  induction pairs generalizing t with
  | nil => exact ⟨arena, fun key => by simp⟩
  | cons pair rest ih =>
    obtain ⟨key, value⟩ := pair
    obtain ⟨-, next, found⟩ := attempt_spec arena key value
    refine ⟨(ih next).1, fun k => ?_⟩
    have := (ih next).2 k
    simp only [List.foldl_cons]
    rw [this, found, Option.or_assoc, List.lookup_cons]
    by_cases h : k = key
    · simp [h]
    · simp [h, beq_eq_false_iff_ne.2 h]

/-- A trie of nodes that additions lead to. -/
theorem arena_ofAttempts (pairs : List (Key × α)) : Arena (ofAttempts pairs).nodes :=
  (foldl_attempt .lone pairs).1

/-- Every key has the first value that was added under it. -/
theorem find?_ofAttempts (pairs : List (Key × α)) (key : Key) :
    (ofAttempts pairs).find? key = pairs.lookup key := by
  have := (foldl_attempt (t := empty) .lone pairs).2 key
  rwa [find?_empty, Option.none_or] at this

/-! ### Keys read from patterns -/

section Reading

variable {read : String → Except RouteError Key} {binds : List (String × α)}

/-- The keys that can be read from the patterns of a run of bindings, with the values. -/
def readPairs (read : String → Except RouteError Key) (binds : List (String × α)) :
    List (Key × α) :=
  binds.filterMap fun bind => (read bind.1).toOption.map (·, bind.2)

theorem mem_readPairs {key : Key} {value : α} :
    (key, value) ∈ readPairs read binds ↔ ∃ pattern, (pattern, value) ∈ binds ∧
      read pattern = .ok key := by
  simp only [readPairs, List.mem_filterMap, Prod.exists]
  constructor
  · rintro ⟨pattern, v, hb, h⟩
    cases hr : read pattern with
    | error e => simp [hr, Except.toOption] at h
    | ok k =>
      obtain ⟨rfl, rfl⟩ : k = key ∧ v = value := by simpa [hr, Except.toOption] using h
      exact ⟨pattern, hb, hr⟩
  · rintro ⟨pattern, hb, hr⟩
    exact ⟨pattern, value, hb, by rw [hr]; rfl⟩

variable {T : Type} (trie : T → Trie α) (mk : Trie α → T)
  (bind : T → String → α → Except RouteError T) {start : T} (empty : trie start = .empty)
  (trie_mk : ∀ t, trie (mk t) = t)
  (bind_eq : ∀ t pattern value, bind t pattern value = match read pattern with
    | .error e => .error e
    | .ok key => match (trie t).insert? key value with
      | none => .error (.duplicateBinding pattern)
      | some next => .ok (mk next))
include empty trie_mk bind_eq

/-- A table that is bound pattern by pattern, where nothing comes of a pattern that cannot be read
or whose key is taken, has the trie of the keys that can be read. -/
theorem trie_foldl_bind :
    trie (binds.foldl (fun t b => (bind t b.1 b.2).toOption.getD t) start) =
      ofAttempts (readPairs read binds) := by
  have run {t : T} (arena : Arena (trie t).nodes) :
      trie (binds.foldl (fun t b => (bind t b.1 b.2).toOption.getD t) t) =
        (readPairs read binds).foldl (fun t pair => (t.attempt pair.1 pair.2).2) (trie t) := by
    induction binds generalizing t with
    | nil => rfl
    | cons b rest ih =>
      obtain ⟨pattern, value⟩ := b
      rw [List.foldl_cons]
      cases hr : read pattern with
      | error e =>
        have skipped : readPairs read ((pattern, value) :: rest) = readPairs read rest := by
          simp [readPairs, hr, Except.toOption]
        have kept : (bind t pattern value).toOption.getD t = t := by
          simp [bind_eq, hr, Except.toOption]
        rw [kept, skipped, ih arena]
      | ok key =>
        have added : readPairs read ((pattern, value) :: rest) = (key, value) :: readPairs read rest
            := by simp [readPairs, hr, Except.toOption]
        have next : trie ((bind t pattern value).toOption.getD t) =
            ((trie t).attempt key value).2 := by
          rw [← insert?_getD arena, bind_eq, hr]
          cases hi : (trie t).insert? key value <;> simp [hi, Except.toOption, trie_mk]
        rw [added, List.foldl_cons, ← next, ih (next ▸ (attempt_spec arena key value).2.1)]
  rw [run (empty ▸ .lone), empty]
  rfl

/-- A pattern that can be read is refused if its key has been bound, and only then. -/
theorem bind_foldl_bind {pattern : String} {key : Key} (hr : read pattern = .ok key) (value : α) :
    bind (binds.foldl (fun t b => (bind t b.1 b.2).toOption.getD t) start) pattern value =
      if ((readPairs read binds).lookup key).isSome then .error (.duplicateBinding pattern)
      else .ok ((binds ++ [(pattern, value)]).foldl
        (fun t b => (bind t b.1 b.2).toOption.getD t) start) := by
  have table : trie (binds.foldl (fun t b => (bind t b.1 b.2).toOption.getD t) start) =
      ofAttempts (readPairs read binds) := trie_foldl_bind trie mk bind empty trie_mk bind_eq
  have arena := arena_ofAttempts (readPairs read binds)
  rw [List.foldl_append, List.foldl_cons, List.foldl_nil, bind_eq, hr]
  simp only [table]
  rw [insert?_eq arena, find?_ofAttempts]
  cases (readPairs read binds).lookup key <;> rfl

end Reading

end Trie

end Turnstile.Routing
