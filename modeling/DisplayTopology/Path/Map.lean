import DisplayTopology.Path.Trie

/-!
# Maps keyed by path

A `PathMap` holds values by location. A key keeps the spelling it was first inserted with;
inserting at a location that is taken replaces the value only.

Lookup is by location, and the changes act on lookups as they should: `find?_insert`,
`find?_insertIfNew`, `find?_erase` and `find?_prune`. The entries of a map come in strict order of
location (`sorted`), an entry is what lookup finds (`find?_eq_some_iff`), and lookups decide the
entries (`entries_eq_iff`). What lies below a location is a trie of its own
(`mem_entries_below_iff`, `mem_level_below_iff`).
-/

namespace DisplayTopology

/-- Values by location: the one at the empty location, and the others step by step. -/
structure PathMap (α : Type) where
  origin : Option (Path × α)
  trie : Trie α
  location_origin : ∀ e ∈ origin, e.1.location = []
  placed : trie.Placed []

namespace PathMap

variable {α : Type}

/-- The map without entries. -/
def empty : PathMap α := ⟨none, .empty, by simp, trivial⟩

/-! ## Reading -/

/-- The entry at a location. -/
def slot? (m : PathMap α) : Location → Option (Path × α)
  | [] => m.origin
  | c :: l => m.trie.find? c l

/-- The value at a location. -/
def find? (m : PathMap α) (l : Location) : Option α := (m.slot? l).map Prod.snd

/-- Whether a location has an entry. -/
def contains (m : PathMap α) (l : Location) : Bool := (m.find? l).isSome

/-- The entries in order of location. -/
def entries (m : PathMap α) : List (Path × α) := m.origin.toList ++ m.trie.entries

/-- Whether some entry satisfies `p`. -/
def any (m : PathMap α) (p : Path × α → Bool) : Bool := m.origin.any p || m.trie.any p

/-- What lies below a location. -/
def below (m : PathMap α) : Location → Trie α
  | [] => m.trie
  | c :: l => m.trie.under c l

/-! ## Changes -/

/-- Changes the entry at a location. -/
def alter (m : PathMap α) (l : Location) (f : Option (Path × α) → Option (Path × α))
    (h : ∀ e ∈ f (m.slot? l), e.1.location = l) : PathMap α :=
  match l with
  | [] => { m with origin := f m.origin, location_origin := h }
  | c :: l => { m with trie := m.trie.alter f c l, placed := Trie.placed_alter m.placed h }

theorem location_slot? {m : PathMap α} {l : Location} {e : Path × α} (h : m.slot? l = some e) :
    e.1.location = l := by
  cases l with
  | nil => exact m.location_origin e h
  | cons c l => exact ((Trie.find?_eq_some_iff m.placed).1 h).2

/-- Puts a value at a path. A path whose location is taken leaves the key as it is spelled. -/
def insert (m : PathMap α) (p : Path) (v : α) : PathMap α :=
  m.alter p.location (fun old => some ((old.map Prod.fst).getD p, v)) <| by
    intro e he
    obtain rfl := Option.some.inj he
    cases ho : m.slot? p.location with
    | none => rfl
    | some old =>
      show old.1.location = _
      exact location_slot? ho

/-- Puts a value at a path whose location is free. -/
def insertIfNew (m : PathMap α) (p : Path) (v : α) : PathMap α :=
  m.alter p.location (fun old => some (old.getD (p, v))) <| by
    intro e he
    obtain rfl := Option.some.inj he
    cases ho : m.slot? p.location with
    | none => rfl
    | some old => exact location_slot? ho

/-- Drops the entry at a location. -/
def erase (m : PathMap α) (l : Location) : PathMap α := m.alter l (fun _ => none) (by simp)

/-- Drops the entries at or below a location. -/
def prune (m : PathMap α) : Location → PathMap α
  | [] => empty
  | c :: l => { m with trie := m.trie.prune c l, placed := Trie.placed_prune m.placed c l }

/-! ## Entries and lookup -/

theorem mem_entries_iff_slot? {m : PathMap α} {e : Path × α} :
    e ∈ m.entries ↔ m.slot? e.1.location = some e := by
  rw [entries, List.mem_append, Option.mem_toList]
  constructor
  · rintro (h | h)
    · rw [m.location_origin e h]
      exact h
    · obtain ⟨c, l, hl, hf⟩ := (Trie.mem_entries_iff m.placed).1 h
      rw [hl]
      exact hf
  · intro h
    cases hl : e.1.location with
    | nil => exact .inl (by rwa [hl] at h)
    | cons c l => exact .inr (Trie.mem_entries_of_find? (by rwa [hl] at h))

theorem slot?_eq_some_iff {m : PathMap α} {l : Location} {e : Path × α} :
    m.slot? l = some e ↔ e ∈ m.entries ∧ e.1.location = l := by
  rw [mem_entries_iff_slot?]
  refine ⟨fun h => ?_, fun ⟨h, hl⟩ => hl ▸ h⟩
  obtain rfl := location_slot? h
  exact ⟨h, rfl⟩

/-- Entries come in strict order of location. -/
theorem sorted (m : PathMap α) :
    m.entries.Pairwise fun a b => compare a.1.location b.1.location = .lt := by
  refine List.pairwise_append.2 ⟨?_, Trie.sorted_entries m.placed, fun a ha b hb => ?_⟩
  · cases m.origin <;> simp
  · obtain ⟨c, -, l, hl⟩ := Trie.exists_step_of_mem_entries m.placed hb
    rw [m.location_origin a (Option.mem_toList.1 ha), hl]
    exact Location.compare_append_cons [] c l

/-- Entries in strict order of location are the same list if they are the same entries. -/
theorem eq_of_sorted {xs ys : List (Path × α)}
    (hx : xs.Pairwise fun a b => compare a.1.location b.1.location = .lt)
    (hy : ys.Pairwise fun a b => compare a.1.location b.1.location = .lt)
    (h : ∀ e, e ∈ xs ↔ e ∈ ys) : xs = ys := by
  have nodup {zs : List (Path × α)}
      (hz : zs.Pairwise fun a b => compare a.1.location b.1.location = .lt) : zs.Nodup :=
    hz.imp fun hlt heq => by simp [heq] at hlt
  refine List.Perm.eq_of_pairwise (fun a b _ _ hab hba => ?_) hx hy
    ((List.perm_ext_iff_of_nodup (nodup hx) (nodup hy)).2 h)
  exact absurd (hab.symm.trans (Std.OrientedCmp.gt_of_lt hba)) (by simp)

/-- Maps with the same entry at every location have the same entries. -/
theorem entries_eq_iff {m n : PathMap α} : m.entries = n.entries ↔ ∀ l, m.slot? l = n.slot? l := by
  constructor
  · intro h l
    ext e
    rw [slot?_eq_some_iff, slot?_eq_some_iff, h]
  · intro h
    refine eq_of_sorted m.sorted n.sorted fun e => ?_
    rw [mem_entries_iff_slot?, mem_entries_iff_slot?, h]

/-- Lookup finds the value of the entry at the location. -/
theorem find?_eq_some_iff {m : PathMap α} {l : Location} {v : α} :
    m.find? l = some v ↔ ∃ p, (p, v) ∈ m.entries ∧ p.location = l := by
  rw [find?, Option.map_eq_some_iff]
  constructor
  · rintro ⟨⟨p, w⟩, he, rfl⟩
    exact ⟨p, slot?_eq_some_iff.1 he⟩
  · rintro ⟨p, hp, hl⟩
    exact ⟨(p, v), slot?_eq_some_iff.2 ⟨hp, hl⟩, rfl⟩

theorem slot?_eq_none_iff {m : PathMap α} {l : Location} : m.slot? l = none ↔ m.find? l = none :=
  Option.map_eq_none_iff.symm

theorem find?_of_slot? {m : PathMap α} {l : Location} {e : Path × α} (h : m.slot? l = some e) :
    m.find? l = some e.2 := by
  rw [find?, h]
  rfl

theorem find?_congr {m n : PathMap α} {l : Location} (h : m.slot? l = n.slot? l) :
    m.find? l = n.find? l :=
  congrArg (Option.map Prod.snd) h

theorem find?_of_mem {m : PathMap α} {e : Path × α} (h : e ∈ m.entries) :
    m.find? e.1.location = some e.2 :=
  find?_eq_some_iff.2 ⟨e.1, h, rfl⟩

@[simp] theorem find?_empty (l : Location) : (empty : PathMap α).find? l = none := by
  cases l <;> rfl

theorem contains_iff {m : PathMap α} {l : Location} : m.contains l ↔ ∃ v, m.find? l = some v :=
  Option.isSome_iff_exists

theorem any_iff {m : PathMap α} {p : Path × α → Bool} : m.any p ↔ ∃ e ∈ m.entries, p e := by
  rw [any, Trie.any_eq, entries]
  cases m.origin <;> simp

/-! ## Changes and lookup -/

theorem slot?_alter (m : PathMap α) (k : Location) (f : Option (Path × α) → Option (Path × α))
    (h : ∀ e ∈ f (m.slot? k), e.1.location = k) (l : Location) :
    (m.alter k f h).slot? l = if l = k then f (m.slot? k) else m.slot? l := by
  cases k <;> cases l <;> simp [alter, slot?, Trie.find?_alter]

theorem slot?_insert (m : PathMap α) (p : Path) (v : α) (l : Location) :
    (m.insert p v).slot? l =
      if l = p.location then some (((m.slot? p.location).map Prod.fst).getD p, v) else m.slot? l :=
  slot?_alter ..

theorem slot?_insert_of_ne {m : PathMap α} {p : Path} {v : α} {l : Location} (h : l ≠ p.location) :
    (m.insert p v).slot? l = m.slot? l := by
  rw [slot?_insert, if_neg h]

theorem slot?_erase (m : PathMap α) (k l : Location) :
    (m.erase k).slot? l = if l = k then none else m.slot? l :=
  slot?_alter ..

theorem slot?_prune (m : PathMap α) (k l : Location) :
    (m.prune k).slot? l = if l.within k then none else m.slot? l := by
  have hw : l.within k ↔ k <+: l := Location.within_iff
  cases k with
  | nil => cases l <;> simp [prune, slot?, hw, empty]
  | cons c k =>
    cases l with
    | nil => simp [slot?, prune, hw]
    | cons d l => simp only [slot?, prune, Trie.find?_prune, hw]

/-- Pruning drops the entries at or below a location from the list of all, and no other. -/
theorem entries_prune (m : PathMap α) (k : Location) :
    (m.prune k).entries = m.entries.filter fun e => !e.1.location.within k := by
  refine eq_of_sorted (m.prune k).sorted (m.sorted.sublist List.filter_sublist) fun e => ?_
  rw [List.mem_filter, mem_entries_iff_slot?, mem_entries_iff_slot?, slot?_prune]
  cases e.1.location.within k <;> simp

@[simp] theorem find?_insert (m : PathMap α) (p : Path) (v : α) (l : Location) :
    (m.insert p v).find? l = if p.location = l then some v else m.find? l := by
  rw [find?, slot?_insert]
  by_cases h : p.location = l
  · simp [h]
  · simp [h, Ne.symm h, find?]

/-- At a free location an insertion adds its entry and nothing else. -/
theorem find?_insert_eq_some_iff {m : PathMap α} {p : Path} {v w : α} {l : Location}
    (h : m.find? p.location = none) :
    (m.insert p v).find? l = some w ↔ m.find? l = some w ∨ l = p.location ∧ w = v := by
  rw [find?_insert]
  by_cases hl : p.location = l
  · subst hl
    simp [h, eq_comm]
  · simp [hl, Ne.symm hl]

@[simp] theorem find?_insertIfNew (m : PathMap α) (p : Path) (v : α) (l : Location) :
    (m.insertIfNew p v).find? l = if p.location = l then some ((m.find? l).getD v) else m.find? l := by
  rw [find?, insertIfNew, slot?_alter]
  by_cases h : p.location = l
  · subst h
    cases he : m.slot? p.location <;> simp [find?, he]
  · simp [h, Ne.symm h, find?]

@[simp] theorem find?_erase (m : PathMap α) (k l : Location) :
    (m.erase k).find? l = if l = k then none else m.find? l := by
  rw [find?, slot?_erase]
  by_cases h : l = k <;> simp [h, find?]

@[simp] theorem find?_prune (m : PathMap α) (k l : Location) :
    (m.prune k).find? l = if l.within k then none else m.find? l := by
  rw [find?, slot?_prune]
  by_cases h : l.within k <;> simp [h, find?]

/-! ## What lies below -/

theorem placed_below (m : PathMap α) (l : Location) : (m.below l).Placed l := by
  cases l with
  | nil => exact m.placed
  | cons c l => exact Trie.placed_under m.placed c l

theorem find?_below (m : PathMap α) (l : Location) (c : Component) (k : Location) :
    (m.below l).find? c k = m.slot? (l ++ c :: k) := by
  cases l with
  | nil => rfl
  | cons d l => exact Trie.find?_under ..

/-- The entries below a location are those whose location goes on from it. -/
theorem mem_entries_below_iff {m : PathMap α} {l : Location} {e : Path × α} :
    e ∈ (m.below l).entries ↔ e ∈ m.entries ∧ e.1.location.below l := by
  rw [Trie.mem_entries_iff (m.placed_below l), Location.below_iff, mem_entries_iff_slot?]
  constructor
  · rintro ⟨c, k, hk, h⟩
    rw [find?_below] at h
    exact ⟨hk ▸ h, c, k, hk⟩
  · rintro ⟨h, c, k, hk⟩
    exact ⟨c, k, hk, by rw [find?_below, ← hk, h]⟩

theorem mem_level_below_iff {m : PathMap α} {l : Location} {e : Path × α} :
    e ∈ (m.below l).level ↔ e ∈ m.entries ∧ ∃ c, e.1.location = l ++ [c] := by
  rw [Trie.mem_level_iff (m.placed_below l), mem_entries_below_iff, and_assoc]
  refine and_congr_right fun _ => and_iff_right_of_imp fun ⟨c, hc⟩ => ?_
  exact Location.below_iff.2 ⟨c, [], hc⟩

/-- What lies below a location is decided by the entries there. -/
theorem entries_below_congr {m n : PathMap α} {l : Location}
    (h : ∀ k : Location, k.below l → m.slot? k = n.slot? k) :
    (m.below l).entries = (n.below l).entries := by
  refine eq_of_sorted (Trie.sorted_entries (m.placed_below l))
    (Trie.sorted_entries (n.placed_below l)) fun e => ?_
  rw [mem_entries_below_iff, mem_entries_below_iff, mem_entries_iff_slot?, mem_entries_iff_slot?]
  exact and_congr_left fun hb => by rw [h _ hb]

theorem level_below_congr {m n : PathMap α} {l : Location}
    (h : ∀ k : Location, k.below l → m.slot? k = n.slot? k) :
    (m.below l).level = (n.below l).level := by
  refine eq_of_sorted
    ((Trie.sorted_entries (m.placed_below l)).sublist (Trie.level_sublist_entries _))
    ((Trie.sorted_entries (n.placed_below l)).sublist (Trie.level_sublist_entries _)) fun e => ?_
  rw [Trie.mem_level_iff (m.placed_below l), Trie.mem_level_iff (n.placed_below l),
    entries_below_congr h]

/-- Inserting acts on the entry at each location by itself. -/
theorem slot?_insert_congr {m n : PathMap α} {l : Location} (p : Path) (v : α)
    (h : m.slot? l = n.slot? l) : (m.insert p v).slot? l = (n.insert p v).slot? l := by
  rw [slot?_insert, slot?_insert]
  split
  · rename_i heq
    rw [← heq, h]
  · exact h

end PathMap

end DisplayTopology
