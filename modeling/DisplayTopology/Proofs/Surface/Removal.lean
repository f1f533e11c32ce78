import DisplayTopology.Proofs.Surface.Hierarchy

/-!
# When a directory can be removed

A directory is *held* when a pinned directory lies at or below it, a link lies below it, or a link
leads to or below it (`Held`). On a tree, nothing stands in the way of removing a directory exactly
when it is not held and no directory of a user lies below it, however deep
(`removalFault?_eq_none_iff`); the search for a fault looks into default groups only, and every
other way down is barred by a directory that a user made.
-/

namespace DisplayTopology

/-- Nothing lies below a step that holds no directory. -/
def Trie.Hangs : Trie Entry → Prop
  | .empty => True
  | .node _ slot below before after =>
    ((∃ p owner, slot = some (p, .dir owner)) ∨ below.entries = []) ∧
      below.Hangs ∧ before.Hangs ∧ after.Hangs

/-- A trie hangs together when every step on the way to an entry holds a directory. -/
theorem Trie.hangs_of_find? {t : Trie Entry} {front : Location} (hp : t.Placed front)
    (h : ∀ c k d rest e, t.find? c (k ++ d :: rest) = some e →
      ∃ p owner, t.find? c k = some (p, .dir owner)) : t.Hangs := by
  induction t generalizing front with
  | empty => trivial
  | node step slot below before after hbelow hbefore hafter =>
    obtain ⟨-, hpb, hpl, hpr, hlt, hgt⟩ := hp
    refine ⟨?_, hbelow hpb fun c k d rest e he => ?_, hbefore hpl fun c k d rest e he => ?_,
      hafter hpr fun c k d rest e he => ?_⟩
    · refine Decidable.or_iff_not_imp_right.2 fun hne => ?_
      obtain ⟨e, hmem⟩ := List.exists_mem_of_ne_nil _ hne
      obtain ⟨c, l, -, hf⟩ := (mem_entries_iff hpb).1 hmem
      rw [← find?_node_cons step slot below before after] at hf
      simpa using h step [] c l e hf
    · rw [← find?_node_cons step slot below before after] at he ⊢
      exact h step (c :: k) d rest e he
    · have hc := hlt c (mem_steps_of_find? he)
      rw [← find?_node_of_lt hc slot below before after] at he ⊢
      exact h c k d rest e he
    · have hc := Std.OrientedCmp.gt_of_lt (hgt c (mem_steps_of_find? he))
      rw [← find?_node_of_gt hc slot below before after] at he ⊢
      exact h c k d rest e he

namespace Surface

open Location

variable {s : Surface} {d l : Location}

/-! ## Busy directories -/

theorem referenced_iff :
    s.referenced d ↔
      ∃ l target, s.entries.find? l = some (.link target) ∧ target.location.within d := by
  rw [referenced, PathMap.any_iff]
  constructor
  · rintro ⟨⟨p, e⟩, hmem, he⟩
    cases e with
    | dir | file => simp at he
    | link target => exact ⟨p.location, target, PathMap.find?_of_mem hmem, he⟩
  · rintro ⟨l, target, hl, hw⟩
    obtain ⟨p, hmem, -⟩ := PathMap.find?_eq_some_iff.1 hl
    exact ⟨(p, .link target), hmem, hw⟩

theorem busyFault?_eq_none_iff :
    s.busyFault? d = none ↔ d ∉ s.pinned ∧
      ∀ l target, s.entries.find? l = some (.link target) → target.location.within d = false := by
  have hr : s.referenced d = false ↔
      ∀ l target, s.entries.find? l = some (.link target) → target.location.within d = false := by
    rw [Bool.eq_false_iff, ne_eq, referenced_iff]
    simp
  rw [busyFault?, ← hr]
  cases s.referenced d <;> simp

/-! ## What is held below a directory -/

/-- What an entry below a directory holds back its removal with: a directory or link that a user
made, or a default group that is busy. -/
def entryFault? (s : Surface) : Path × Entry → Option Errno
  | (_, .file _) => none
  | (p, .dir .kernel) => s.busyFault? p.location
  | (_, .dir .user) | (_, .link _) => some .enotempty

/-- The first entry that holds a directory back is found in order of location. -/
theorem heldFault?_eq_findSome? {t : Trie Entry} (hp : t.Placed d) (ht : t.Hangs) :
    s.heldFault? d t = t.entries.findSome? s.entryFault? := by
  induction t generalizing d with
  | empty => rfl
  | node step slot below before after hbelow hbefore hafter =>
    obtain ⟨hslot, hpb, hpl, hpr, -, -⟩ := hp
    obtain ⟨hup, hhb, hhl, hhr⟩ := ht
    simp only [heldFault?, Option.orElse_eq_orElse, Option.orElse_eq_or, hbefore hpl hhl,
      hafter hpr hhr, Trie.entries_node, List.findSome?_append]
    congr 1
    -- a step below which something lies holds a directory, and one of a user ends the search
    match slot with
    | none | some (p, .file data) =>
      have hnil : below.entries = [] := by simpa using hup
      simp [hnil, entryFault?]
    | some (p, .dir .kernel) =>
      have hloc : p.location = d ++ [step] := hslot _ rfl
      simp [hbelow hpb hhb, entryFault?, hloc, Option.or_assoc]
    | some (p, .dir .user) | some (p, .link target) => simp [entryFault?]

/-- A trie of entries holds nothing back when all of them are files, or default groups that are not
busy. -/
theorem heldFault?_eq_none_iff {t : Trie Entry} (hp : t.Placed d) (ht : t.Hangs) :
    s.heldFault? d t = none ↔ ∀ e ∈ t.entries,
      (∃ data, e.2 = .file data) ∨ e.2 = .dir .kernel ∧ s.busyFault? e.1.location = none := by
  rw [heldFault?_eq_findSome? hp ht, List.findSome?_eq_none_iff]
  refine forall₂_congr fun e _ => ?_
  rcases e with ⟨p, (_ | _) | data | target⟩ <;> simp [entryFault?]

theorem hangs_below (hs : s.IsTree) (d : Location) : (s.entries.below d).Hangs := by
  refine Trie.hangs_of_find? (s.entries.placed_below d) fun c k x rest e he => ?_
  rw [PathMap.find?_below] at he
  have hl := contains_of_find? (PathMap.find?_of_slot? he)
  have hb : below (d ++ c :: (k ++ x :: rest)) (d ++ c :: k) := below_iff.2 ⟨x, rest, by simp⟩
  obtain ⟨owner, ho⟩ := dirAt_iff.1 (hs.dirAt_of_below hl hb (by simp))
  obtain ⟨⟨p, v⟩, hslot, hv⟩ := Option.map_eq_some_iff.1 ho
  obtain rfl : v = .dir owner := hv
  exact ⟨p, owner, by rw [PathMap.find?_below, hslot]⟩

/-! ## Removal -/

/-- Whether a directory cannot go, looking at links that last only: a pinned directory lies at or
below it, or a lasting link lies below it or leads to or below it. -/
def Held (s : Surface) (lasting : Location → Prop) (d : Location) : Prop :=
  (∃ l ∈ s.pinned, s.dirAt l ∧ l.within d) ∨
    ∃ l target, s.entries.find? l = some (.link target) ∧ lasting l ∧
      (l.below d ∨ target.location.within d)

/-- What holds a directory holds the directories above it. -/
theorem Held.mono {lasting : Location → Prop} (h : s.Held lasting d) (hw : d.within l) :
    s.Held lasting l := by
  rcases h with ⟨m, hm, hdir, hmd⟩ | ⟨m, target, hm, hlast, hb | ht⟩
  · exact .inl ⟨m, hm, hdir, within_trans hmd hw⟩
  · exact .inr ⟨m, target, hm, hlast, .inl (below_of_below_of_within hb hw)⟩
  · exact .inr ⟨m, target, hm, hlast, .inr (within_trans ht hw)⟩

/-- **Removal.** On a tree, a directory can be removed exactly when it is not held and no directory
of a user lies below it. -/
theorem removalFault?_eq_none_iff (hs : s.IsTree) (hd : s.dirAt d) :
    s.removalFault? d = none ↔ ¬s.Held (fun _ => True) d ∧
      ∀ l, l.below d → s.entries.find? l ≠ some (.dir .user) := by
  simp only [removalFault?, Option.orElse_eq_orElse, Option.orElse_eq_or, Option.or_eq_none_iff,
    heldFault?_eq_none_iff (s.entries.placed_below d) (hangs_below hs d),
    PathMap.mem_entries_below_iff, busyFault?_eq_none_iff]
  constructor
  · rintro ⟨⟨hpin, href⟩, hbelow⟩
    have key {l : Location} {e : Entry} (hl : l.below d) (he : s.entries.find? l = some e) :
        (∃ data, e = .file data) ∨ e = .dir .kernel ∧ l ∉ s.pinned := by
      obtain ⟨p, hmem, rfl⟩ := PathMap.find?_eq_some_iff.1 he
      exact (hbelow (p, e) ⟨hmem, hl⟩).imp id fun h => ⟨h.1, h.2.1⟩
    refine ⟨?_, fun l hl he => by simpa using key hl he⟩
    rintro (⟨l, hl, hdir, hw⟩ | ⟨l, target, hl, -, hb | ht⟩)
    · rcases within_iff_eq_or_below.1 hw with rfl | hb
      · exact hpin hl
      · obtain ⟨owner, ho⟩ := dirAt_iff.1 hdir
        rcases key hb ho with ⟨data, hdata⟩ | ⟨-, hnot⟩
        · simp at hdata
        · exact hnot hl
    · simpa using key hb hl
    · rw [href l target hl] at ht
      contradiction
  · rintro ⟨hheld, huser⟩
    have free {l : Location} (hl : l.within d) : ∀ m target,
        s.entries.find? m = some (.link target) → target.location.within l = false :=
      fun m target hm => Bool.eq_false_iff.2 fun hw =>
        hheld (.inr ⟨m, target, hm, trivial, .inr (within_trans hw hl)⟩)
    refine ⟨⟨fun hpin => hheld (.inl ⟨d, hpin, hd, within_refl d⟩), free (within_refl d)⟩, ?_⟩
    rintro ⟨p, e⟩ ⟨hmem, hb⟩
    have he := PathMap.find?_of_mem hmem
    match e with
    | .file data => exact .inl ⟨data, rfl⟩
    | .dir .user => exact absurd he (huser _ hb)
    | .link target => exact absurd (.inr ⟨_, target, he, trivial, .inl hb⟩) hheld
    | .dir .kernel =>
      refine .inr ⟨rfl, fun hpin => ?_, free (within_of_below hb)⟩
      exact hheld (.inl ⟨_, hpin, dirAt_of_find? he, within_of_below hb⟩)

/-! ## Default groups cannot be removed by hand -/

theorem busyFault?_ne_eperm : s.busyFault? d ≠ some .eperm := by
  rw [busyFault?]
  split <;> simp

theorem heldFault?_ne_eperm (t : Trie Entry) : s.heldFault? d t ≠ some .eperm := by
  induction t generalizing d with
  | empty => simp [heldFault?]
  | node step slot below before after hbelow hbefore hafter =>
    have hgroup : (s.busyFault? (d ++ [step])).or (s.heldFault? (d ++ [step]) below) ≠
        some .eperm := by
      rw [ne_eq, Option.or_eq_some_iff]
      rintro (h | ⟨-, h⟩)
      · exact busyFault?_ne_eperm h
      · exact hbelow h
    simp only [heldFault?, Option.orElse_eq_orElse, Option.orElse_eq_or, ne_eq,
      Option.or_eq_some_iff, not_or, not_and]
    refine ⟨hbefore, fun _ => ⟨?_, fun _ => hafter⟩⟩
    match slot with
    | none | some (_, .file _) | some (_, .dir .user) | some (_, .link _) => simp
    | some (_, .dir .kernel) => exact hgroup

/-- Removing a directory is not permitted exactly where it is a default group. -/
theorem removeDir_eq_eperm_iff {p : Path} :
    s.removeDir p = .error .eperm ↔ s.entry? p = some (.dir .kernel) := by
  have hfault : s.removalFault? p.location ≠ some .eperm := by
    rw [removalFault?, Option.orElse_eq_orElse, Option.orElse_eq_or, ne_eq, Option.or_eq_some_iff]
    rintro (h | ⟨-, h⟩)
    · exact busyFault?_ne_eperm h
    · exact heldFault?_ne_eperm _ h
  rw [removeDir]
  rcases s.entry? p with _ | (_ | _) | _ | _ <;> simp
  split <;> simp_all

end Surface

end DisplayTopology
