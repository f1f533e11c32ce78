import DisplayTopology.Path.Basic

/-!
# Tries of paths

A `Trie` holds values by location, step by step: a search tree of the steps that can come next, and
for each of them the value there, with the path as it was spelled, and the trie of what lies below.
A step stays in the trie when nothing is left at it.

Searching compares one step at a time, so the two changes act on searches as they should whatever
the trie: `find?_alter` and `find?_prune`. Where every value stands at the location of its path and
steps are in order (`Placed`), the entries of a trie are what searches find (`mem_entries_iff`), in
strict order of location (`sorted_entries`).
-/

namespace DisplayTopology

/-- Values by location, with the paths they were put at. -/
inductive Trie (α : Type) where
  | empty
  /-- A step, the value that stands there, what lies below it, and the steps before and after it. -/
  | node (step : Component) (slot : Option (Path × α)) (below before after : Trie α)

namespace Trie

variable {α : Type}

/-! ## Reading -/

/-- The entry at the location `c :: l`. -/
def find? : Trie α → Component → Location → Option (Path × α)
  | empty, _, _ => none
  | node step slot below before after, c, l =>
    match compare c step with
    | .lt => before.find? c l
    | .gt => after.find? c l
    | .eq =>
      match l with
      | [] => slot
      | d :: l => below.find? d l

/-- What lies below the location `c :: l`. -/
def under : Trie α → Component → Location → Trie α
  | empty, _, _ => empty
  | node step _ below before after, c, l =>
    match compare c step with
    | .lt => before.under c l
    | .gt => after.under c l
    | .eq =>
      match l with
      | [] => below
      | d :: l => below.under d l

/-- The steps that can come first, in order. -/
def steps : Trie α → List Component
  | empty => []
  | node step _ _ before after => before.steps ++ step :: after.steps

/-- The entries in order of location, followed by `rest`. -/
def entriesAnd : Trie α → List (Path × α) → List (Path × α)
  | empty, rest => rest
  | node _ slot below before after, rest =>
    before.entriesAnd (slot.toList ++ below.entriesAnd (after.entriesAnd rest))

/-- The entries in order of location. -/
def entries (t : Trie α) : List (Path × α) := t.entriesAnd []

/-- The entries one step on, in order, followed by `rest`. -/
def levelAnd : Trie α → List (Path × α) → List (Path × α)
  | empty, rest => rest
  | node _ slot _ before after, rest => before.levelAnd (slot.toList ++ after.levelAnd rest)

/-- The entries one step on, in order. -/
def level (t : Trie α) : List (Path × α) := t.levelAnd []

/-- Whether some entry satisfies `p`. -/
def any (p : Path × α → Bool) : Trie α → Bool
  | empty => false
  | node _ slot below before after => slot.any p || below.any p || before.any p || after.any p

/-! ## Changes -/

/-- The trie with nothing but what stands at the location `c :: l`. -/
def only (slot : Option (Path × α)) (c : Component) : Location → Trie α
  | [] => node c slot empty empty empty
  | d :: l => node c none (only slot d l) empty empty

/-- Changes what stands at the location `c :: l`. -/
def alter (f : Option (Path × α) → Option (Path × α)) : Trie α → Component → Location → Trie α
  | empty, c, l => only (f none) c l
  | node step slot below before after, c, l =>
    match compare c step with
    | .lt => node step slot below (before.alter f c l) after
    | .gt => node step slot below before (after.alter f c l)
    | .eq =>
      match l with
      | [] => node step (f slot) below before after
      | d :: l => node step slot (below.alter f d l) before after

/-- Drops what stands at or below the location `c :: l`. -/
def prune : Trie α → Component → Location → Trie α
  | empty, _, _ => empty
  | node step slot below before after, c, l =>
    match compare c step with
    | .lt => node step slot below (before.prune c l) after
    | .gt => node step slot below before (after.prune c l)
    | .eq =>
      match l with
      | [] => node step none empty before after
      | d :: l => node step slot (below.prune d l) before after

/-! ## Changes and searches -/

@[simp] theorem find?_empty (c : Component) (l : Location) : (empty : Trie α).find? c l = none := rfl

theorem find?_node_of_lt {step c : Component} (h : compare c step = .lt) (slot : Option (Path × α))
    (below before after : Trie α) (l : Location) :
    (node step slot below before after).find? c l = before.find? c l := by
  simp only [find?, h]

theorem find?_node_of_gt {step c : Component} (h : compare c step = .gt) (slot : Option (Path × α))
    (below before after : Trie α) (l : Location) :
    (node step slot below before after).find? c l = after.find? c l := by
  simp only [find?, h]

@[simp] theorem find?_node_nil (step : Component) (slot : Option (Path × α))
    (below before after : Trie α) : (node step slot below before after).find? step [] = slot := by
  simp only [find?, Std.ReflOrd.compare_self]

@[simp] theorem find?_node_cons (step : Component) (slot : Option (Path × α))
    (below before after : Trie α) (d : Component) (l : Location) :
    (node step slot below before after).find? step (d :: l) = below.find? d l := by
  simp only [find?, Std.ReflOrd.compare_self]

theorem find?_only (slot : Option (Path × α)) (c d : Component) (l m : Location) :
    (only slot c l).find? d m = if d = c ∧ m = l then slot else none := by
  induction l generalizing c d m with
  | nil =>
    by_cases h : d = c
    · subst h
      cases m <;> simp [only]
    · cases hc : compare d c with
      | lt => simp [only, find?_node_of_lt hc, h]
      | gt => simp [only, find?_node_of_gt hc, h]
      | eq => exact absurd (Std.LawfulEqOrd.eq_of_compare hc) h
  | cons e l ih =>
    by_cases h : d = c
    · subst h
      cases m <;> simp [only, ih]
    · cases hc : compare d c with
      | lt => simp [only, find?_node_of_lt hc, h]
      | gt => simp [only, find?_node_of_gt hc, h]
      | eq => exact absurd (Std.LawfulEqOrd.eq_of_compare hc) h

theorem find?_alter (f : Option (Path × α) → Option (Path × α)) (t : Trie α) (c d : Component)
    (l m : Location) :
    (t.alter f c l).find? d m = if d = c ∧ m = l then f (t.find? c l) else t.find? d m := by
  induction t generalizing c d l m with
  | empty => simp [alter, find?_only]
  | node step slot below before after hbelow hbefore hafter =>
    have apart {o : Ordering} {a b : Component} (ha : compare a step = o) (hb : compare b step ≠ o) :
        b ≠ a := fun h => hb (h ▸ ha)
    cases hc : compare c step with
    | lt =>
      simp only [alter, hc, find?_node_of_lt hc]
      cases hd : compare d step with
      | lt => rw [find?_node_of_lt hd, find?_node_of_lt hd, hbefore]
      | gt => rw [find?_node_of_gt hd, find?_node_of_gt hd, if_neg (by simp [apart hc, hd])]
      | eq =>
        obtain rfl := Std.LawfulEqOrd.eq_of_compare hd
        cases m <;> simp [apart hc]
    | gt =>
      simp only [alter, hc, find?_node_of_gt hc]
      cases hd : compare d step with
      | lt => rw [find?_node_of_lt hd, find?_node_of_lt hd, if_neg (by simp [apart hc, hd])]
      | gt => rw [find?_node_of_gt hd, find?_node_of_gt hd, hafter]
      | eq =>
        obtain rfl := Std.LawfulEqOrd.eq_of_compare hd
        cases m <;> simp [apart hc]
    | eq =>
      obtain rfl := Std.LawfulEqOrd.eq_of_compare hc
      cases hd : compare d c with
      | lt => cases l <;> simp [alter, find?_node_of_lt hd, apart hc, hd]
      | gt => cases l <;> simp [alter, find?_node_of_gt hd, apart hc, hd]
      | eq =>
        obtain rfl := Std.LawfulEqOrd.eq_of_compare hd
        cases l <;> cases m <;> simp [alter, hbelow]

theorem find?_prune (t : Trie α) (c d : Component) (l m : Location) :
    (t.prune c l).find? d m = if c :: l <+: d :: m then none else t.find? d m := by
  induction t generalizing c d l m with
  | empty => simp [prune]
  | node step slot below before after hbelow hbefore hafter =>
    have apart {o : Ordering} {a b : Component} (ha : compare a step = o) (hb : compare b step ≠ o) :
        a ≠ b := fun h => hb (h ▸ ha)
    cases hc : compare c step with
    | lt =>
      simp only [prune, hc]
      cases hd : compare d step with
      | lt => rw [find?_node_of_lt hd, find?_node_of_lt hd, hbefore]
      | gt =>
        rw [find?_node_of_gt hd, find?_node_of_gt hd, if_neg]
        simp [List.cons_prefix_cons, apart hc, hd]
      | eq =>
        obtain rfl := Std.LawfulEqOrd.eq_of_compare hd
        cases m <;> simp [List.cons_prefix_cons, apart hc]
    | gt =>
      simp only [prune, hc]
      cases hd : compare d step with
      | lt =>
        rw [find?_node_of_lt hd, find?_node_of_lt hd, if_neg]
        simp [List.cons_prefix_cons, apart hc, hd]
      | gt => rw [find?_node_of_gt hd, find?_node_of_gt hd, hafter]
      | eq =>
        obtain rfl := Std.LawfulEqOrd.eq_of_compare hd
        cases m <;> simp [List.cons_prefix_cons, apart hc]
    | eq =>
      obtain rfl := Std.LawfulEqOrd.eq_of_compare hc
      cases hd : compare d c with
      | lt =>
        cases l <;> simp [prune, find?_node_of_lt hd, List.cons_prefix_cons, apart hc, hd]
      | gt =>
        cases l <;> simp [prune, find?_node_of_gt hd, List.cons_prefix_cons, apart hc, hd]
      | eq =>
        obtain rfl := Std.LawfulEqOrd.eq_of_compare hd
        cases l <;> cases m <;> simp [prune, hbelow, List.cons_prefix_cons]

theorem find?_under (t : Trie α) (c d : Component) (l m : Location) :
    (t.under c l).find? d m = t.find? c (l ++ d :: m) := by
  induction t generalizing c l with
  | empty => rfl
  | node step slot below before after hbelow hbefore hafter =>
    cases hc : compare c step with
    | lt => simp only [under, hc, find?_node_of_lt hc, hbefore]
    | gt => simp only [under, hc, find?_node_of_gt hc, hafter]
    | eq =>
      obtain rfl := Std.LawfulEqOrd.eq_of_compare hc
      cases l <;> simp [under, hbelow]

/-! ## Entries -/

theorem entriesAnd_eq (t : Trie α) (rest : List (Path × α)) : t.entriesAnd rest = t.entries ++ rest := by
  induction t generalizing rest with
  | empty => rfl
  | node step slot below before after hbelow hbefore hafter =>
    rw [entries, entriesAnd, entriesAnd, hbefore, hbelow, hafter, hbefore, hbelow (after.entriesAnd []),
      ← entries]
    simp

@[simp] theorem entries_empty : (empty : Trie α).entries = [] := rfl

@[simp] theorem entries_node (step : Component) (slot : Option (Path × α))
    (below before after : Trie α) : (node step slot below before after).entries =
      before.entries ++ (slot.toList ++ (below.entries ++ after.entries)) := by
  rw [entries, entriesAnd, entriesAnd_eq, entriesAnd_eq, entriesAnd_eq, List.append_nil]

theorem levelAnd_eq (t : Trie α) (rest : List (Path × α)) : t.levelAnd rest = t.level ++ rest := by
  induction t generalizing rest with
  | empty => rfl
  | node step slot below before after _ hbefore hafter =>
    rw [level, levelAnd, levelAnd, hbefore, hafter, hbefore, ← level]
    simp

@[simp] theorem level_empty : (empty : Trie α).level = [] := rfl

@[simp] theorem level_node (step : Component) (slot : Option (Path × α))
    (below before after : Trie α) : (node step slot below before after).level =
      before.level ++ (slot.toList ++ after.level) := by
  rw [level, levelAnd, levelAnd_eq, levelAnd_eq, List.append_nil]

theorem level_sublist_entries (t : Trie α) : t.level.Sublist t.entries := by
  induction t with
  | empty => exact .slnil
  | node step slot below before after _ hbefore hafter =>
    rw [level_node, entries_node]
    exact hbefore.append ((List.Sublist.refl _).append
      (hafter.trans (List.sublist_append_right ..)))

theorem any_eq (p : Path × α → Bool) (t : Trie α) : t.any p = t.entries.any p := by
  induction t with
  | empty => rfl
  | node step slot below before after hbelow hbefore hafter =>
    rw [any, hbelow, hbefore, hafter, entries_node]
    cases slot <;> simp [Bool.or_left_comm, Bool.or_assoc]

theorem mem_entries_of_find? {t : Trie α} {c : Component} {l : Location} {e : Path × α}
    (h : t.find? c l = some e) : e ∈ t.entries := by
  induction t generalizing c l with
  | empty => simp at h
  | node step slot below before after hbelow hbefore hafter =>
    rw [entries_node]
    cases hc : compare c step with
    | lt => simp [hbefore ((find?_node_of_lt hc ..).symm.trans h)]
    | gt => simp [hafter ((find?_node_of_gt hc ..).symm.trans h)]
    | eq =>
      obtain rfl := Std.LawfulEqOrd.eq_of_compare hc
      cases l with
      | nil => simp_all
      | cons d l => simp [hbelow ((find?_node_cons ..).symm.trans h)]

theorem mem_steps_of_find? {t : Trie α} {c : Component} {l : Location} {e : Path × α}
    (h : t.find? c l = some e) : c ∈ t.steps := by
  induction t with
  | empty => simp at h
  | node step slot below before after _ hbefore hafter =>
    rw [steps, List.mem_append, List.mem_cons]
    cases hc : compare c step with
    | lt => exact .inl (hbefore ((find?_node_of_lt hc ..).symm.trans h))
    | gt => exact .inr (.inr (hafter ((find?_node_of_gt hc ..).symm.trans h)))
    | eq => exact .inr (.inl (Std.LawfulEqOrd.eq_of_compare hc))

/-! ## Tries in order -/

/-- Every value stands at the location of its path, seen from `front`, and steps are in order. -/
def Placed (front : Location) : Trie α → Prop
  | empty => True
  | node step slot below before after =>
    (∀ e ∈ slot, e.1.location = front ++ [step]) ∧ below.Placed (front ++ [step]) ∧
      before.Placed front ∧ after.Placed front ∧
      (∀ s ∈ before.steps, compare s step = .lt) ∧ ∀ s ∈ after.steps, compare step s = .lt

theorem exists_step_of_mem_entries {t : Trie α} {front : Location} (h : t.Placed front)
    {e : Path × α} (he : e ∈ t.entries) : ∃ c ∈ t.steps, ∃ l, e.1.location = front ++ c :: l := by
  induction t generalizing front with
  | empty => simp at he
  | node step slot below before after hbelow hbefore hafter =>
    obtain ⟨hslot, hb, hl, hr, -, -⟩ := h
    simp only [entries_node, List.mem_append, Option.mem_toList] at he
    rcases he with he | he | he | he
    · obtain ⟨c, hc, l, hl⟩ := hbefore hl he
      exact ⟨c, by simp [steps, hc], l, hl⟩
    · exact ⟨step, by simp [steps], [], hslot e he⟩
    · obtain ⟨c, -, l, hl⟩ := hbelow hb he
      exact ⟨step, by simp [steps], c :: l, by simp [hl]⟩
    · obtain ⟨c, hc, l, hl⟩ := hafter hr he
      exact ⟨c, by simp [steps, hc], l, hl⟩

/-- Searching finds the entry at the location. -/
theorem find?_eq_some_iff {t : Trie α} {front : Location} (h : t.Placed front) {c : Component}
    {l : Location} {e : Path × α} :
    t.find? c l = some e ↔ e ∈ t.entries ∧ e.1.location = front ++ c :: l := by
  induction t generalizing front c l with
  | empty => simp
  | node step slot below before after hbelow hbefore hafter =>
    obtain ⟨hslot, hb, hl, hr, hlt, hgt⟩ := h
    have step_of {s : Component} {m : Location} (hs : e.1.location = front ++ s :: m)
        (he : e.1.location = front ++ c :: l) : s = c := by
      rw [hs] at he
      exact (List.cons.inj (List.append_cancel_left he)).1
    have at_slot (he : e ∈ slot) (hloc : e.1.location = front ++ c :: l) : step = c :=
      step_of (hslot e he) hloc
    have at_below (he : e ∈ below.entries) (hloc : e.1.location = front ++ c :: l) : step = c := by
      obtain ⟨d, -, m, hm⟩ := exists_step_of_mem_entries hb he
      exact step_of (m := d :: m) (by simpa using hm) hloc
    have at_before (he : e ∈ before.entries) (hloc : e.1.location = front ++ c :: l) :
        compare c step = .lt := by
      obtain ⟨d, hd, m, hm⟩ := exists_step_of_mem_entries hl he
      exact step_of hm hloc ▸ hlt d hd
    have at_after (he : e ∈ after.entries) (hloc : e.1.location = front ++ c :: l) :
        compare c step = .gt := by
      obtain ⟨d, hd, m, hm⟩ := exists_step_of_mem_entries hr he
      exact Std.OrientedCmp.gt_of_lt (step_of hm hloc ▸ hgt d hd)
    simp only [entries_node, List.mem_append, Option.mem_toList]
    cases hc : compare c step with
    | lt =>
      rw [find?_node_of_lt hc, hbefore hl]
      refine ⟨fun ⟨he, hloc⟩ => ⟨.inl he, hloc⟩, fun ⟨he, hloc⟩ => ⟨?_, hloc⟩⟩
      rcases he with he | he | he | he
      · exact he
      · simp [at_slot he hloc] at hc
      · simp [at_below he hloc] at hc
      · simp [at_after he hloc] at hc
    | gt =>
      rw [find?_node_of_gt hc, hafter hr]
      refine ⟨fun ⟨he, hloc⟩ => ⟨.inr (.inr (.inr he)), hloc⟩, fun ⟨he, hloc⟩ => ⟨?_, hloc⟩⟩
      rcases he with he | he | he | he
      · simp [at_before he hloc] at hc
      · simp [at_slot he hloc] at hc
      · simp [at_below he hloc] at hc
      · exact he
    | eq =>
      obtain rfl := Std.LawfulEqOrd.eq_of_compare hc
      cases l with
      | nil =>
        rw [find?_node_nil]
        refine ⟨fun he => ⟨.inr (.inl he), hslot e he⟩, fun ⟨he, hloc⟩ => ?_⟩
        rcases he with he | he | he | he
        · simpa using at_before he hloc
        · exact he
        · obtain ⟨d, -, m, hm⟩ := exists_step_of_mem_entries hb he
          rw [hm] at hloc
          simp at hloc
        · simpa using at_after he hloc
      | cons d l =>
        rw [find?_node_cons, hbelow hb]
        simp only [List.append_assoc, List.singleton_append]
        refine ⟨fun ⟨he, hloc⟩ => ⟨.inr (.inr (.inl he)), hloc⟩, fun ⟨he, hloc⟩ => ⟨?_, hloc⟩⟩
        rcases he with he | he | he | he
        · simpa using at_before he hloc
        · rw [hslot e he] at hloc
          simp at hloc
        · exact he
        · simpa using at_after he hloc

/-- The entries of a trie are what searches find. -/
theorem mem_entries_iff {t : Trie α} {front : Location} (h : t.Placed front) {e : Path × α} :
    e ∈ t.entries ↔ ∃ c l, e.1.location = front ++ c :: l ∧ t.find? c l = some e := by
  constructor
  · intro he
    obtain ⟨c, -, l, hl⟩ := exists_step_of_mem_entries h he
    exact ⟨c, l, hl, (find?_eq_some_iff h).2 ⟨he, hl⟩⟩
  · rintro ⟨c, l, -, hf⟩
    exact mem_entries_of_find? hf

/-- Entries come in strict order of location. -/
theorem sorted_entries {t : Trie α} {front : Location} (h : t.Placed front) :
    t.entries.Pairwise fun a b => compare a.1.location b.1.location = .lt := by
  induction t generalizing front with
  | empty => exact .nil
  | node step slot below before after hbelow hbefore hafter =>
    obtain ⟨hslot, hb, hl, hr, hlt, hgt⟩ := h
    have hbefore_lt {a b : Path × α} (ha : a ∈ before.entries) {l : Location}
        (h : b.1.location = front ++ step :: l) : compare a.1.location b.1.location = .lt := by
      obtain ⟨c, hc, m, hm⟩ := exists_step_of_mem_entries hl ha
      rw [hm, h]
      exact Location.compare_append_of_lt front (hlt c hc) m l
    have hlt_after {a b : Path × α} {l : Location} (h : a.1.location = front ++ step :: l)
        (hb : b ∈ after.entries) : compare a.1.location b.1.location = .lt := by
      obtain ⟨c, hc, m, hm⟩ := exists_step_of_mem_entries hr hb
      rw [hm, h]
      exact Location.compare_append_of_lt front (hgt c hc) l m
    have hof_below {b : Path × α} (h : b ∈ below.entries) :
        ∃ c l, b.1.location = front ++ step :: c :: l := by
      obtain ⟨c, -, l, hl⟩ := exists_step_of_mem_entries hb h
      exact ⟨c, l, by simp [hl]⟩
    rw [entries_node]
    refine List.pairwise_append.2 ⟨hbefore hl, List.pairwise_append.2 ⟨?_, List.pairwise_append.2
      ⟨hbelow hb, hafter hr, fun a ha b hb => ?_⟩, fun a ha b hb => ?_⟩, fun a ha b hb => ?_⟩
    · cases slot <;> simp
    · obtain ⟨c, l, hl⟩ := hof_below ha
      exact hlt_after hl hb
    · have ha := hslot a (Option.mem_toList.1 ha)
      rcases List.mem_append.1 hb with hb | hb
      · obtain ⟨c, l, hl⟩ := hof_below hb
        rw [ha, hl]
        simpa using Location.compare_append_cons (front ++ [step]) c l
      · exact hlt_after ha hb
    · simp only [List.mem_append, Option.mem_toList] at hb
      rcases hb with hb | hb | hb
      · exact hbefore_lt ha (hslot b hb)
      · obtain ⟨c, l, hl⟩ := hof_below hb
        exact hbefore_lt ha hl
      · obtain ⟨c, hc, l, hm⟩ := exists_step_of_mem_entries hl ha
        obtain ⟨d, hd, m, hn⟩ := exists_step_of_mem_entries hr hb
        rw [hm, hn]
        exact Location.compare_append_of_lt front (Std.TransCmp.lt_trans (hlt c hc) (hgt d hd)) l m

/-- The entries one step on are those whose location has one step more. -/
theorem mem_level_iff {t : Trie α} {front : Location} (h : t.Placed front) {e : Path × α} :
    e ∈ t.level ↔ e ∈ t.entries ∧ ∃ c, e.1.location = front ++ [c] := by
  induction t generalizing front with
  | empty => simp
  | node step slot below before after _ hbefore hafter =>
    obtain ⟨hslot, hb, hl, hr, -, -⟩ := h
    simp only [level_node, entries_node, List.mem_append, Option.mem_toList, hbefore hl, hafter hr]
    constructor
    · rintro (⟨he, hc⟩ | he | ⟨he, hc⟩)
      · exact ⟨.inl he, hc⟩
      · exact ⟨.inr (.inl he), step, hslot e he⟩
      · exact ⟨.inr (.inr (.inr he)), hc⟩
    · rintro ⟨he | he | he | he, hc⟩
      · exact .inl ⟨he, hc⟩
      · exact .inr (.inl he)
      · obtain ⟨d, -, l, hl⟩ := exists_step_of_mem_entries hb he
        obtain ⟨c, hc⟩ := hc
        rw [hl] at hc
        simp at hc
      · exact .inr (.inr ⟨he, hc⟩)

/-! ## Changes keep the order -/

@[simp] theorem placed_empty (front : Location) : (empty : Trie α).Placed front := trivial

theorem placed_only {slot : Option (Path × α)} {front : Location} {c : Component} {l : Location}
    (h : ∀ e ∈ slot, e.1.location = front ++ c :: l) : (only slot c l).Placed front := by
  induction l generalizing front c with
  | nil => exact ⟨h, trivial, trivial, trivial, by simp [steps], by simp [steps]⟩
  | cons d l ih =>
    exact ⟨by simp, ih (by simpa using h), trivial, trivial, by simp [steps], by simp [steps]⟩

theorem mem_steps_alter {f : Option (Path × α) → Option (Path × α)} {t : Trie α} {c s : Component}
    {l : Location} (h : s ∈ (t.alter f c l).steps) : s = c ∨ s ∈ t.steps := by
  induction t generalizing l with
  | empty => cases l <;> simp_all [alter, only, steps]
  | node step slot below before after _ hbefore hafter =>
    cases hc : compare c step with
    | lt =>
      simp only [alter, hc, steps, List.mem_append, List.mem_cons] at h ⊢
      rcases h with h | h
      · exact (hbefore h).imp id .inl
      · exact .inr (.inr h)
    | gt =>
      simp only [alter, hc, steps, List.mem_append, List.mem_cons] at h ⊢
      rcases h with h | h | h
      · exact .inr (.inl h)
      · exact .inr (.inr (.inl h))
      · exact (hafter h).imp id fun h => .inr (.inr h)
    | eq => cases l <;> simp_all [alter, steps]

theorem placed_alter {f : Option (Path × α) → Option (Path × α)} {t : Trie α} {front : Location}
    {c : Component} {l : Location} (h : t.Placed front)
    (hf : ∀ e ∈ f (t.find? c l), e.1.location = front ++ c :: l) : (t.alter f c l).Placed front := by
  induction t generalizing front c l with
  | empty => exact placed_only hf
  | node step slot below before after hbelow hbefore hafter =>
    obtain ⟨hslot, hb, hl, hr, hlt, hgt⟩ := h
    cases hc : compare c step with
    | lt =>
      simp only [alter, hc]
      rw [find?_node_of_lt hc] at hf
      refine ⟨hslot, hb, hbefore hl hf, hr, fun s hs => ?_, hgt⟩
      rcases mem_steps_alter hs with rfl | hs
      · exact hc
      · exact hlt s hs
    | gt =>
      simp only [alter, hc]
      rw [find?_node_of_gt hc] at hf
      refine ⟨hslot, hb, hl, hafter hr hf, hlt, fun s hs => ?_⟩
      rcases mem_steps_alter hs with rfl | hs
      · exact Std.OrientedCmp.lt_of_gt hc
      · exact hgt s hs
    | eq =>
      obtain rfl := Std.LawfulEqOrd.eq_of_compare hc
      cases l with
      | nil =>
        simp only [alter, hc]
        exact ⟨by simpa using hf, hb, hl, hr, hlt, hgt⟩
      | cons d l =>
        simp only [alter, hc]
        exact ⟨hslot, hbelow hb (by simpa using hf), hl, hr, hlt, hgt⟩

theorem steps_prune (t : Trie α) (c : Component) (l : Location) : (t.prune c l).steps = t.steps := by
  induction t generalizing l with
  | empty => rfl
  | node step slot below before after _ hbefore hafter =>
    cases hc : compare c step <;> cases l <;> simp [prune, hc, steps, hbefore, hafter]

theorem placed_prune {t : Trie α} {front : Location} (h : t.Placed front) (c : Component)
    (l : Location) : (t.prune c l).Placed front := by
  induction t generalizing front c l with
  | empty => trivial
  | node step slot below before after hbelow hbefore hafter =>
    obtain ⟨hslot, hb, hl, hr, hlt, hgt⟩ := h
    cases hc : compare c step with
    | lt =>
      simp only [prune, hc]
      exact ⟨hslot, hb, hbefore hl .., hr, by simpa [steps_prune] using hlt, hgt⟩
    | gt =>
      simp only [prune, hc]
      exact ⟨hslot, hb, hl, hafter hr .., hlt, by simpa [steps_prune] using hgt⟩
    | eq =>
      cases l with
      | nil =>
        simp only [prune, hc]
        exact ⟨by simp, trivial, hl, hr, hlt, hgt⟩
      | cons d l =>
        simp only [prune, hc]
        exact ⟨hslot, hbelow hb .., hl, hr, hlt, hgt⟩

theorem placed_under {t : Trie α} {front : Location} (h : t.Placed front) (c : Component)
    (l : Location) : (t.under c l).Placed (front ++ c :: l) := by
  induction t generalizing front c l with
  | empty => trivial
  | node step slot below before after hbelow hbefore hafter =>
    obtain ⟨-, hb, hl, hr, -, -⟩ := h
    cases hc : compare c step with
    | lt => simpa only [under, hc] using hbefore hl c l
    | gt => simpa only [under, hc] using hafter hr c l
    | eq =>
      obtain rfl := Std.LawfulEqOrd.eq_of_compare hc
      cases l with
      | nil => simpa only [under, hc] using hb
      | cons d l => simpa [under] using hbelow hb d l

end Trie

end DisplayTopology
