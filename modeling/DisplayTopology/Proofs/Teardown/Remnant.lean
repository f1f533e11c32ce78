import DisplayTopology.Proofs.Surface.Removal
import DisplayTopology.Session.Teardown

/-!
# What a teardown leaves behind

A teardown unlinks the links that are *routed*: those that lie directly in the outermost directory
for links on their way down from the root (`Routed`). It removes the directories of users that are
*loose*: nothing that lasts holds them (`Loose`). Both only as far as names are text, since it goes
by what directories list. What is routed, or lies in a loose directory, is *lost* (`Lost`).

A surface that lacks nothing of another but what is lost is a *remnant* of it (`Remnant`). Whatever
lasts is in every remnant, so a directory that is held stays held (`Remnant.held`), and the two
things a teardown does keep a remnant a remnant: unlinking a routed link (`Remnant.removeLink`) and
removing a directory (`Remnant.removeDir`). Beside this, `Logged` says that a log of events tells
which directories of users went.
-/

namespace DisplayTopology.Teardown

open Location Surface

/-- Whether a location bears the name of a directory for links. -/
def IsLinkDir (l : Location) : Prop := ∃ name, l.name? = some name ∧ isLinkDirName name.shown

/-- Whether a location lies directly in the outermost directory for links on its way down from a
root, and is reached from the root by names that are text. -/
def Routed (root l : Location) : Prop :=
  Legible root l ∧ ∃ dir, l.parent? = some dir ∧ dir.below root ∧ IsLinkDir dir ∧
    ∀ m, m.below root → dir.below m → ¬IsLinkDir m

/-- A link that is routed. -/
def RoutedLink (s : Surface) (root l : Location) : Prop :=
  (∃ target, s.entries.find? l = some (.link target)) ∧ Routed root l

/-- Whether a surface is without routed links. -/
def Unrouted (s : Surface) (root : Location) : Prop := ∀ l, ¬RoutedLink s root l

/-- A directory of a user that no lasting link and no pin holds: links that are routed do not last.
The names on the way to it, and to the directories of users below it, are text. -/
structure Loose (s : Surface) (root d : Location) : Prop where
  within : d.within root
  user : s.entries.find? d = some (.dir .user)
  free : ¬s.Held (fun l => ¬Routed root l) d
  legible : ∀ l, l.within d → s.entries.find? l = some (.dir .user) → Legible root l

/-- What a teardown takes: routed links, and all that lies at or below a loose directory. -/
def Lost (s : Surface) (root l : Location) : Prop :=
  (∃ target, s.entries.find? l = some (.link target)) ∧ Routed root l ∨
    ∃ d, Loose s root d ∧ l.within d

variable {s t u : Surface} {root l d : Location} {events more : List Event}

theorem isLinkDir_append_named {text : String} :
    IsLinkDir (d ++ [.named text]) ↔ isLinkDirName text := by
  simp [IsLinkDir]

/-- The directory for links that a routed location lies below is the one it lies in. -/
theorem Routed.parent?_eq (h : Routed root l) (hd : d.below root) (hlink : IsLinkDir d)
    (hl : l.below d) : l.parent? = some d := by
  obtain ⟨-, dir, hp, -, -, houter⟩ := h
  rcases within_iff_eq_or_below.1 (within_of_below_of_parent? hl hp) with rfl | hb
  · exact hp
  · exact absurd hlink (houter d hd hb)

/-- No directory for links is at a location or between it and a root. -/
def Clear (root d : Location) : Prop := ∀ m, m.below root → d.within m → ¬IsLinkDir m

theorem clear_root (root : Location) : Clear root root := fun _ hm hw =>
  absurd rfl (ne_of_below (below_of_within_of_below hw hm))

/-- What lies in a clear directory is clear above. -/
theorem Clear.above (h : Clear root d) (hp : l.parent? = some d) :
    ∀ m, m.below root → l.below m → ¬IsLinkDir m :=
  fun m hm hl => h m hm (within_of_below_of_parent? hl hp)

theorem Clear.child (h : Clear root d) (hp : l.parent? = some d) (hl : ¬IsLinkDir l) :
    Clear root l := by
  intro m hm hw
  rcases within_iff_eq_or_below.1 hw with rfl | hb
  · exact hl
  · exact h.above hp m hm hb

/-- Nothing that lies in a clear directory is routed. -/
theorem Clear.not_routed (h : Clear root d) (hp : l.parent? = some d) : ¬Routed root l := by
  rintro ⟨-, dir, hdir, hb, hlink, -⟩
  rw [hp] at hdir
  obtain rfl := Option.some.inj hdir
  exact h _ hb (within_refl _) hlink

theorem Routed.below (h : Routed root l) : l.below root := by
  obtain ⟨-, dir, hp, hb, -⟩ := h
  exact below_of_within_of_below (within_of_parent? hp) hb

theorem Lost.within (h : Lost s root l) : l.within root := by
  rcases h with ⟨-, hr⟩ | ⟨d, hd, hw⟩
  · exact within_of_below hr.below
  · exact within_trans hw hd.within

/-- A directory of a user in a loose directory is loose. -/
theorem Loose.of_within (h : Loose s root d) (hw : l.within d)
    (hl : s.entries.find? l = some (.dir .user)) : Loose s root l :=
  ⟨within_trans hw h.within, hl, fun hheld => h.free (hheld.mono hw),
    fun m hm => h.legible m (within_trans hm hw)⟩

/-- A directory of a user is lost exactly when it is loose. -/
theorem lost_user_iff (h : s.entries.find? l = some (.dir .user)) :
    Lost s root l ↔ Loose s root l := by
  constructor
  · rintro (⟨⟨target, ht⟩, -⟩ | ⟨d, hd, hw⟩)
    · simp [h] at ht
    · exact hd.of_within hw h
  · exact fun hl => .inr ⟨l, hl, within_refl l⟩

/-- A link is lost exactly when it is routed: one that lasts holds whatever it lies in. -/
theorem lost_link_iff {target : Path} (h : s.entries.find? l = some (.link target)) :
    Lost s root l ↔ Routed root l := by
  constructor
  · rintro (⟨-, hr⟩ | ⟨d, hd, hw⟩)
    · exact hr
    · refine Classical.byContradiction fun hnot => hd.free (.inr ⟨l, target, h, hnot, .inl ?_⟩)
      refine below_of_within_of_ne hw fun heq => ?_
      have hu := hd.user
      rw [← heq, h] at hu
      simp at hu
  · exact fun hr => .inl ⟨⟨target, h⟩, hr⟩

/-- Any other entry is lost exactly when it lies below a loose directory. -/
theorem lost_iff_exists_below {e : Entry} (h : s.entries.find? l = some e)
    (hlink : ∀ target, e ≠ .link target) (huser : e ≠ .dir .user) :
    Lost s root l ↔ ∃ d, Loose s root d ∧ l.below d := by
  constructor
  · rintro (⟨⟨target, ht⟩, -⟩ | ⟨d, hd, hw⟩)
    · rw [h] at ht
      exact absurd (Option.some.inj ht) (hlink target)
    · refine ⟨d, hd, below_of_within_of_ne hw fun heq => huser ?_⟩
      have hu := hd.user
      rw [← heq, h] at hu
      exact Option.some.inj hu
  · exact fun ⟨d, hd, hb⟩ => .inr ⟨d, hd, within_of_below hb⟩

/-! ## Remnants -/

/-- A tree that lacks nothing of `s` but what is lost. -/
structure Remnant (s : Surface) (root : Location) (t : Surface) : Prop where
  tree : t.IsTree
  pinned : t.pinned = s.pinned
  slot : ∀ l, t.entries.slot? l = s.entries.slot? l ∨ t.entries.slot? l = none ∧ Lost s root l

namespace Remnant

theorem refl (hs : s.IsTree) : Remnant s root s := ⟨hs, rfl, fun _ => .inl rfl⟩

theorem find? (h : Remnant s root t) (hl : t.entries.find? l ≠ none) :
    t.entries.find? l = s.entries.find? l := by
  rcases h.slot l with he | ⟨hn, -⟩
  · exact PathMap.find?_congr he
  · exact absurd (PathMap.slot?_eq_none_iff.1 hn) hl

theorem find?_of_eq_some {e : Entry} (h : Remnant s root t) (hl : t.entries.find? l = some e) :
    s.entries.find? l = some e := by
  rw [← h.find? (by simp [hl]), hl]

theorem find?_of_not_lost (h : Remnant s root t) (hl : ¬Lost s root l) :
    t.entries.find? l = s.entries.find? l := by
  rcases h.slot l with he | ⟨-, hlost⟩
  · exact PathMap.find?_congr he
  · exact absurd hlost hl

theorem plainBelow (h : Remnant s root t) (hp : s.PlainBelow root) : t.PlainBelow root := by
  intro l hl hb
  obtain ⟨e, he⟩ := PathMap.contains_iff.1 hl
  exact hp l (contains_of_find? (h.find?_of_eq_some he)) hb

/-- What holds a directory is in every remnant. -/
theorem held (h : Remnant s root t) (hd : s.Held (fun l => ¬Routed root l) d) :
    t.Held (fun _ => True) d := by
  rcases hd with ⟨l, hl, hdir, hw⟩ | ⟨l, target, hl, hlast, hor⟩
  · refine .inl ⟨l, h.pinned ▸ hl, ?_, hw⟩
    rw [dirAt_congr (h.find?_of_not_lost ?_)]
    · exact hdir
    · rintro (⟨⟨target, ht⟩, -⟩ | ⟨m, hm, hlm⟩)
      · obtain ⟨owner, ho⟩ := dirAt_iff.1 hdir
        simp [ho] at ht
      · exact hm.free (.inl ⟨l, hl, hdir, hlm⟩)
  · refine .inr ⟨l, target, ?_, trivial, hor⟩
    rw [h.find?_of_not_lost fun hlost => hlast ((lost_link_iff hl).1 hlost), hl]

/-- Without routed links, what holds a directory of a remnant has held it from the start. -/
theorem held_of_unrouted (h : Remnant s root t) (hun : Unrouted t root)
    (hd : t.Held (fun _ => True) d) : s.Held (fun l => ¬Routed root l) d := by
  rcases hd with ⟨l, hl, hdir, hw⟩ | ⟨l, target, hl, -, hor⟩
  · obtain ⟨owner, ho⟩ := dirAt_iff.1 hdir
    exact .inl ⟨l, h.pinned ▸ hl, dirAt_of_find? (h.find?_of_eq_some ho), hw⟩
  · exact .inr ⟨l, target, h.find?_of_eq_some hl, fun hr => hun l ⟨⟨target, hl⟩, hr⟩, hor⟩

/-- A directory of a user that has gone was reached by names that are text. -/
theorem legible_of_find?_ne (h : Remnant s root t) (hs : s.entries.find? l = some (.dir .user))
    (ht : t.entries.find? l ≠ some (.dir .user)) : Legible root l := by
  have hlost : Lost s root l := Classical.byContradiction fun hnot =>
    ht (by rw [h.find?_of_not_lost hnot, hs])
  exact ((lost_user_iff hs).1 hlost).legible l (within_refl l) hs

theorem removeLink {p : Path} (h : Remnant s root t) (hp : t.removeLink p = .ok u)
    (hr : Routed root p.location) : Remnant s root u := by
  have hslot := slot?_removeLink hp
  obtain ⟨⟨target, ht⟩, hu⟩ := removeLink_eq_ok_iff.1 hp
  refine ⟨h.tree.removeLink hp, by rw [hu]; exact h.pinned, fun l => ?_⟩
  rw [hslot]
  split
  · rename_i heq
    exact .inr ⟨rfl, .inl ⟨⟨target, h.find?_of_eq_some (heq ▸ ht)⟩, heq ▸ hr⟩⟩
  · exact h.slot l

/-- A directory that could be removed was loose. -/
theorem removeDir {p : Path} (h : Remnant s root t) (hp : t.removeDir p = .ok u)
    (hreach : Legible root p.location) : Remnant s root u := by
  have hslot := slot?_removeDir hp
  obtain ⟨huser, hfault, hu⟩ := removeDir_eq_ok_iff.1 hp
  have hdir : t.dirAt p.location := dirAt_of_find? huser
  obtain ⟨hfree, hbelow⟩ := (removalFault?_eq_none_iff h.tree hdir).1 hfault
  have hloose : Loose s root p.location := by
    refine ⟨hreach.within, h.find?_of_eq_some huser, fun hheld => hfree (h.held hheld), ?_⟩
    intro l hw hl
    rcases within_iff_eq_or_below.1 hw with rfl | hb
    · exact hreach
    · exact h.legible_of_find?_ne hl (hbelow l hb)
  refine ⟨h.tree.removeDir hp, by rw [hu]; exact h.pinned, fun l => ?_⟩
  rw [hslot]
  split
  · rename_i hl
    exact .inr ⟨rfl, .inr ⟨_, hloose, hl⟩⟩
  · exact h.slot l

end Remnant

/-! ## Logs -/

/-- Entries only went between two surfaces, and the events say which directories of users. -/
structure Logged (s : Surface) (events : List Event) (t : Surface) : Prop where
  slot : ∀ l, t.entries.slot? l = s.entries.slot? l ∨ t.entries.slot? l = none
  removed : ∀ l, (∃ p, .removed p ∈ events ∧ p.location = l) ↔
    s.entries.find? l = some (.dir .user) ∧ t.entries.find? l = none

namespace Logged

theorem find? (h : Logged s events t) (l : Location) :
    t.entries.find? l = s.entries.find? l ∨ t.entries.find? l = none :=
  (h.slot l).imp PathMap.find?_congr PathMap.slot?_eq_none_iff.1

theorem find?_of_eq_some {e : Entry} (h : Logged s events t) (hl : t.entries.find? l = some e) :
    s.entries.find? l = some e := by
  rcases h.find? l with he | hn
  · rw [← he, hl]
  · simp [hl] at hn

theorem find?_eq_none (h : Logged s events t) (hl : s.entries.find? l = none) :
    t.entries.find? l = none := by
  rcases h.find? l with he | hn
  · rw [he, hl]
  · exact hn

theorem dirAt (h : Logged s events t) (hl : t.dirAt l) : s.dirAt l := by
  obtain ⟨owner, ho⟩ := dirAt_iff.1 hl
  exact dirAt_of_find? (h.find?_of_eq_some ho)

theorem slot?_eq_none (h : Logged s events t) (hl : s.entries.slot? l = none) :
    t.entries.slot? l = none := by
  rcases h.slot l with he | hn
  · rw [he, hl]
  · exact hn

/-- No link turns up. -/
theorem unrouted (h : Logged s events t) (hun : Unrouted s root) : Unrouted t root := by
  rintro l ⟨⟨target, hl⟩, hr⟩
  exact hun l ⟨⟨target, h.find?_of_eq_some hl⟩, hr⟩

theorem nil (s : Surface) : Logged s [] s := by
  refine ⟨fun _ => .inl rfl, fun l => ?_⟩
  simp only [List.not_mem_nil, false_and, exists_false, false_iff, not_and]
  intro h
  simp [h]

theorem append (h : Logged s events t) (h' : Logged t more u) : Logged s (events ++ more) u := by
  refine ⟨fun l => ?_, fun l => ?_⟩
  · rcases h'.slot l with he | hn
    · rw [he]
      exact h.slot l
    · exact .inr hn
  · simp only [List.mem_append, or_and_right, exists_or, h.removed, h'.removed]
    constructor
    · rintro (⟨hu, hn⟩ | ⟨hu, hn⟩)
      · exact ⟨hu, h'.find?_eq_none hn⟩
      · exact ⟨h.find?_of_eq_some hu, hn⟩
    · rintro ⟨hu, hn⟩
      rcases h.find? l with he | hn'
      · exact .inr ⟨by rw [he, hu], hn⟩
      · exact .inl ⟨hu, hn'⟩

/-- An event that removes nothing goes with a step that takes no directory. -/
theorem singleton {event : Event} (hslot : ∀ l, t.entries.slot? l = s.entries.slot? l ∨
      t.entries.slot? l = none ∧ s.entries.find? l ≠ some (.dir .user))
    (hevent : ∀ p, event ≠ .removed p) : Logged s [event] t := by
  refine ⟨fun l => (hslot l).imp id And.left, fun l => ?_⟩
  constructor
  · rintro ⟨p, hp, -⟩
    exact absurd (List.mem_singleton.1 hp).symm (hevent p)
  · rintro ⟨hu, hn⟩
    rcases hslot l with he | ⟨-, hnot⟩
    · rw [PathMap.find?_congr he, hu] at hn
      simp at hn
    · exact absurd hu hnot

theorem removeLink {p : Path} (h : s.removeLink p = .ok t) : Logged s [.unlinked p] t := by
  refine singleton (fun l => ?_) (by simp)
  rw [slot?_removeLink h]
  split
  · rename_i heq
    obtain ⟨⟨target, ht⟩, -⟩ := removeLink_eq_ok_iff.1 h
    refine .inr ⟨rfl, ?_⟩
    rw [heq, show s.entries.find? p.location = _ from ht]
    simp
  · exact .inl rfl

/-- A directory that can be removed takes no other directory of a user along. -/
theorem removeDir {p : Path} (hs : s.IsTree) (h : s.removeDir p = .ok t) :
    Logged s [.removed p] t := by
  obtain ⟨huser, hfault, -⟩ := removeDir_eq_ok_iff.1 h
  have hbelow := ((removalFault?_eq_none_iff hs (dirAt_of_find? huser)).1 hfault).2
  refine ⟨fun l => ?_, fun l => ?_⟩
  · rw [slot?_removeDir h]
    split
    · exact .inr rfl
    · exact .inl rfl
  · rw [find?_of_removeDir h]
    constructor
    · rintro ⟨q, hq, rfl⟩
      obtain rfl : q = p := by simpa using hq
      exact ⟨huser, if_pos (within_refl _)⟩
    · rintro ⟨hu, hn⟩
      split at hn
      · rename_i hw
        rcases within_iff_eq_or_below.1 hw with heq | hb
        · exact ⟨p, List.mem_singleton_self _, heq.symm⟩
        · exact absurd hu (hbelow l hb)
      · simp [hu] at hn

end Logged

/-! ## Steps of a teardown -/

/-- From a remnant on, the events tell what went, and a remnant is left. -/
structure Progress (s : Surface) (root : Location) (t : Surface) (events : List Event)
    (u : Surface) : Prop where
  logged : Logged t events u
  remnant : Remnant s root u

theorem Progress.nil (h : Remnant s root t) : Progress s root t [] t := ⟨.nil t, h⟩

theorem Progress.append {v : Surface} (h : Progress s root t events u)
    (h' : Progress s root u more v) : Progress s root t (events ++ more) v :=
  ⟨h.logged.append h'.logged, h'.remnant⟩

theorem progress_tryRemove (dir : Path) (h : Remnant s root t) (hreach : Legible root dir.location) :
    Progress s root t [(tryRemove dir t).1] (tryRemove dir t).2 := by
  unfold tryRemove
  cases hr : t.removeDir dir with
  | ok u => exact ⟨.removeDir h.tree hr, h.removeDir hr hreach⟩
  | error e => exact ⟨.singleton (fun _ => .inl rfl) (by simp), h⟩

end DisplayTopology.Teardown
