import DisplayTopology.Proofs.Surface.Listing
import DisplayTopology.Proofs.Teardown.Remnant

/-!
# The walks of a teardown

On a tree whose entries below the root end in plain names, both walks of a teardown end within their
budget (`deep_budget`). Wherever they come is reached from the root by texts, since the items of a
listing are texts (`location_item`), and they come to all that is (`exists_dir_of_legible`). The
first unlinks every routed link (`clearLinks_spec`); the directories that it removes on the way are
loose, so it leaves a remnant. The second, on a remnant without routed links, removes every loose
directory (`removeTree_spec`): those below a directory are gone when the directory itself is tried,
and then nothing stands in its way unless it is held. Together they take exactly what is lost
(`removeTopology_spec`).
-/

namespace DisplayTopology.Teardown

open Location Surface

variable {s t u : Surface} {root l : Location} {dir : Path} {events : List Event} {items : List Item}

/-! ## Listings -/

/-- The path of an item leads one step on, and the step is text. -/
theorem location_item (hp : t.PlainBelow root) (hw : dir.location.within root)
    (h : t.list dir = .ok items) {item : Item} (hi : item ∈ items) :
    (dir / item.name).location = dir.location ++ [.named item.name] := by
  obtain ⟨-, rfl⟩ := list_eq_ok_iff.1 h
  obtain ⟨e, hmem, rfl⟩ := List.mem_map.1 hi
  obtain ⟨hentry, hpar⟩ := mem_children_iff.1 hmem
  obtain ⟨name, hname⟩ := hp _ (contains_of_find? (PathMap.find?_of_mem hentry))
    (below_of_below_of_within (below_of_parent? hpar) hw)
  exact location_ofEntry hmem hname

/-- The item of an entry whose name is text leads to it. -/
theorem leads_of_legible {e : Path × Entry} (he : e ∈ t.children dir.location)
    (hread : Legible dir.location e.1.location) :
    (dir / (Item.ofEntry e).name).location = e.1.location := by
  obtain ⟨text, htext⟩ := hread.exists_named (mem_children_iff.1 he).2 (within_refl _)
  have hname : e.1.name? = some (Bytes.encode text) := by
    rw [Path.name?, htext, name?_append_named]
  exact (byName_of_child he hname).leads text (namedBy_iff_name?.2 hname)

/-- What is listed as a directory leads one step on, and there is one, though not always there. -/
theorem location_of_dir_item (hp : t.PlainDirsBelow dir.location) (h : t.list dir = .ok items)
    {item : Item} (hi : item ∈ items) (hk : item.kind = .dir) :
    (dir / item.name).location = dir.location ++ [.named item.name] ∧
      ∃ c, t.dirAt (dir.location ++ [c]) := by
  obtain ⟨-, rfl⟩ := list_eq_ok_iff.1 h
  obtain ⟨e, hmem, rfl⟩ := List.mem_map.1 hi
  obtain ⟨hentry, hpar⟩ := mem_children_iff.1 hmem
  have hdir := dirAt_of_kind (PathMap.find?_of_mem hentry) hk
  obtain ⟨name, hname⟩ := hp _ hdir (below_of_parent? hpar)
  exact ⟨location_ofEntry hmem hname, .plain name, (location_of_name? hmem hname).1 ▸ hdir⟩

/-- An entry one step below is listed if the step is text, and its item leads there. -/
theorem item_of_find? {text : String} {e : Entry} (h : t.list dir = .ok items)
    (he : t.entries.find? (dir.location ++ [.named text]) = some e) :
    ⟨text, e.kind⟩ ∈ items ∧ (dir / text).location = dir.location ++ [.named text] := by
  obtain ⟨-, rfl⟩ := list_eq_ok_iff.1 h
  obtain ⟨p, hm, hl⟩ := PathMap.find?_eq_some_iff.1 he
  have hchild : (p, e) ∈ t.children dir.location :=
    mem_children_iff.2 ⟨hm, by rw [hl, parent?_append_named]⟩
  have hname : p.name? = some (Bytes.encode text) := by rw [Path.name?, hl, name?_append_named]
  have hitem : (Item.ofEntry (p, e)).name = text :=
    (location_of_namedBy hchild (namedBy_iff_name?.2 hname)).2
  refine ⟨List.mem_map.2 ⟨(p, e), hchild, by rw [← hitem]; rfl⟩, ?_⟩
  have hloc := location_ofEntry hchild hname
  rwa [hitem] at hloc

/-- On a tree, the way down by names that are text starts with a directory that is listed, unless it
is one step down to what is no directory. -/
theorem exists_dir_of_legible (ht : t.IsTree) (h : t.list dir = .ok items)
    (hl : t.entries.contains l) (hr : Legible dir.location l) (hne : l ≠ dir.location)
    (hchild : l.parent? = some dir.location → t.dirAt l) :
    ∃ item ∈ items, item.kind = .dir ∧ Legible (dir / item.name).location l := by
  obtain ⟨text, hrest⟩ := hr.cases hne
  have hdir : t.dirAt (dir.location ++ [.named text]) := by
    rcases within_iff_eq_or_below.1 hrest.within with rfl | hb
    · exact hchild (parent?_append_named ..)
    · exact ht.dirAt_of_below hl hb (by simp)
  obtain ⟨owner, ho⟩ := dirAt_iff.1 hdir
  obtain ⟨hi, hloc⟩ := item_of_find? h ho
  exact ⟨_, hi, rfl, hloc ▸ hrest⟩

/-- In a clear directory nothing is routed, so a routed entry below it lies below a directory that it
lists. -/
theorem exists_dir_of_routed (ht : t.IsTree) (hp : t.PlainDirsBelow dir.location)
    (h : t.list dir = .ok items) (hw : dir.location.within root)
    (hclear : Clear root dir.location) (hr : Routed root l) (hl : t.entries.contains l)
    (hb : l.below dir.location) :
    ∃ item ∈ items, item.kind = .dir ∧ l.below (dir / item.name).location := by
  obtain ⟨item, hi, hk, hreach⟩ := exists_dir_of_legible ht h hl
    (hr.1.of_within hw (within_of_below hb)) (ne_of_below hb)
    fun hpar => absurd hr (hclear.not_routed hpar)
  refine ⟨item, hi, hk, below_of_within_of_ne hreach.within ?_⟩
  rintro rfl
  exact hclear.not_routed (by rw [(location_of_dir_item hp h hi hk).1, parent?_append_named]) hr

/-! ## Visiting the directories of a listing -/

/-- If every visit goes on from a remnant and leaves nothing of its region, then visiting all listed
directories goes on from a remnant and leaves nothing of any region. -/
theorem overDirs_spec (visit : String → Surface → Option Walked)
    (region : String → Location → Prop) {t₀ : Surface}
    (hvisit : ∀ item ∈ items, item.kind = .dir → ∀ events u, Progress s root t₀ events u →
      ∃ more v, visit item.name u = some (more, v) ∧ Progress s root u more v ∧
        ∀ l, region item.name l → v.entries.slot? l = none)
    (h : Progress s root t₀ events t) :
    ∃ more u, overDirs visit items t = some (more, u) ∧ Progress s root t more u ∧
      ∀ item ∈ items, item.kind = .dir → ∀ l, region item.name l → u.entries.slot? l = none := by
  induction items generalizing events t with
  | nil => exact ⟨[], t, rfl, .nil h.remnant, by simp⟩
  | cons item items ih =>
    have hrest := fun i hi => hvisit i (List.mem_cons_of_mem item hi)
    cases hk : item.kind with
    | file | link =>
      obtain ⟨more, u, hu, hpu, hdone⟩ := ih hrest h
      refine ⟨more, u, by simp [overDirs, hk, hu], hpu, fun i hi hik => ?_⟩
      rcases List.mem_cons.1 hi with rfl | hi
      · simp [hk] at hik
      · exact hdone i hi hik
    | dir =>
      obtain ⟨es, v, hv, hpv, hregion⟩ := hvisit item List.mem_cons_self hk events t h
      obtain ⟨more, u, hu, hpu, hdone⟩ := ih hrest (h.append hpv)
      refine ⟨es ++ more, u, by simp [overDirs, hk, hv, hu], hpv.append hpu, fun i hi hik => ?_⟩
      rcases List.mem_cons.1 hi with rfl | hi
      · exact fun l hl => hpu.logged.slot?_eq_none (hregion l hl)
      · exact hdone i hi hik

/-! ## Depth -/

/-- Directories lie less than `n` steps below a location. -/
def Deep (t : Surface) (d : Location) (n : Nat) : Prop :=
  ∀ rest, t.dirAt (d ++ rest) → rest.length < n

theorem Deep.child {n : Nat} {d : Location} (h : Deep t d (n + 1)) (c : Component) :
    Deep t (d ++ [c]) n := by
  intro rest hdir
  have hlt := h (c :: rest) (by simpa using hdir)
  simpa using hlt

theorem Deep.pos {n : Nat} {d : Location} (h : Deep t d n) (hd : t.dirAt d) : 0 < n :=
  h [] (by simpa using hd)

theorem Deep.logged {n : Nat} {d : Location} (h : Deep t d n) (hl : Logged t events u) :
    Deep u d n :=
  fun rest hdir => h rest (hl.dirAt hdir)

/-- A directory that is listed leaves room for what lies below its item, also when entries have
gone. -/
theorem Deep.item {n : Nat} (h : Deep t dir.location (n + 1)) (hp : t.PlainDirsBelow dir.location)
    (hlist : t.list dir = .ok items) {item : Item} (hi : item ∈ items) (hk : item.kind = .dir)
    (hl : Logged t events u) : 0 < n ∧ Deep u (dir / item.name).location n := by
  obtain ⟨hloc, c, hdir⟩ := location_of_dir_item hp hlist hi hk
  rw [hloc]
  exact ⟨(h.child _).pos hdir, (h.child _).logged hl⟩

/-- The budget of a tree suffices: a directory and those above it are entries of their own. -/
theorem deep_budget (hs : s.IsTree) (hne : root ≠ []) : Deep s root (budget s) := by
  intro rest hdir
  have hmem : root :: along root rest ⊆ s.entries.entries.map fun e => e.1.location := by
    intro m hm
    obtain ⟨hrm, hml⟩ := mem_cons_along_iff.1 hm
    have hd : s.dirAt m := by
      by_cases heq : root ++ rest = m
      · exact heq ▸ hdir
      · have hmne := ne_nil_of_within (within_iff.2 hrm) hne
        exact hs.dirAt_of_below (contains_of_dirAt hdir)
          (below_of_within_of_ne (within_iff.2 hml) heq) hmne
    obtain ⟨e, he⟩ := PathMap.contains_iff.1 (contains_of_dirAt hd)
    obtain ⟨p, hp, rfl⟩ := PathMap.find?_eq_some_iff.1 he
    exact List.mem_map.2 ⟨(p, e), hp, rfl⟩
  have hle := (nodup_cons_along root rest).length_le_of_subset hmem
  rw [List.length_cons, length_along, List.length_map] at hle
  unfold budget
  omega

/-! ## Clearing directories for links -/

theorem unlinkAll_spec (hitems : ∀ item ∈ items, Routed root (dir / item.name).location)
    (h : Remnant s root t) :
    ∃ events u, unlinkAll dir items t = (events, u) ∧ Progress s root t events u ∧
      ∀ item ∈ items, ∀ target, t.entries.find? (dir / item.name).location = some (.link target) →
        u.entries.find? (dir / item.name).location = none := by
  induction items generalizing t with
  | nil => exact ⟨[], t, rfl, .nil h, by simp⟩
  | cons item items ih =>
    obtain ⟨hroute, hroutes⟩ := List.forall_mem_cons.1 hitems
    rw [unlinkAll]
    cases hr : t.removeLink (dir / item.name) with
    | ok v =>
      have hstep : Progress s root t [.unlinked (dir / item.name)] v :=
        ⟨.removeLink hr, h.removeLink hr hroute⟩
      obtain ⟨events, u, hu, hpu, hdone⟩ := ih hroutes hstep.remnant
      refine ⟨.unlinked (dir / item.name) :: events, u, by simp [hu], hstep.append hpu, ?_⟩
      intro i hi target ht
      rcases hstep.logged.find? (dir / i.name).location with he | hn
      · rcases List.mem_cons.1 hi with rfl | hi
        · rw [find?_of_removeLink hr, if_pos rfl, ht] at he
          simp at he
        · exact hdone i hi target (by rw [he, ht])
      · exact hpu.logged.find?_eq_none hn
    | error e =>
      have hstep : Progress s root t [.kept (dir / item.name)] t :=
        ⟨.singleton (fun _ => .inl rfl) (by simp), h⟩
      obtain ⟨events, u, hu, hpu, hdone⟩ := ih hroutes h
      refine ⟨.kept (dir / item.name) :: events, u, by simp [hu], hstep.append hpu, ?_⟩
      intro i hi target ht
      rcases List.mem_cons.1 hi with rfl | hi
      · have hok := removeLink_eq_ok_iff.2 ⟨⟨target, ht⟩, rfl⟩
        rw [hr] at hok
        simp at hok
      · exact hdone i hi target ht

/-- Clearing an outermost directory for links leaves no link in it. -/
theorem clearLinkDir_spec (h : Remnant s root t) (hp : s.PlainBelow root)
    (hreach : Legible root dir.location) (hb : dir.location.below root)
    (hlink : IsLinkDir dir.location)
    (houter : ∀ m, m.below root → dir.location.below m → ¬IsLinkDir m) :
    ∃ events u, clearLinkDir dir t = (events, u) ∧ Progress s root t events u ∧
      ∀ l, RoutedLink s root l → l.parent? = some dir.location → u.entries.slot? l = none := by
  have hroute : ∀ item ∈ listed t dir, Routed root (dir / item.name).location := by
    intro item hi
    unfold listed at hi
    split at hi
    · rename_i items hlist
      rw [location_item (h.plainBelow hp) hreach.within hlist hi]
      exact ⟨hreach.child _, dir.location, parent?_append_named .., hb, hlink, houter⟩
    · simp at hi
  obtain ⟨events, v, hv, hpv, hdone⟩ := unlinkAll_spec hroute h
  have hremove := progress_tryRemove dir hpv.remnant hreach
  refine ⟨_, _, by rw [clearLinkDir, hv], hpv.append hremove, fun l hl hpar => ?_⟩
  obtain ⟨⟨target, hl⟩, hr⟩ := hl
  refine PathMap.slot?_eq_none_iff.2 (hremove.logged.find?_eq_none ?_)
  cases ht : t.entries.find? l with
  | none => exact hpv.logged.find?_eq_none ht
  | some e =>
    obtain rfl := Option.some.inj ((h.find?_of_eq_some ht).symm.trans hl)
    have hdir := h.tree l dir.location (contains_of_find? ht) hpar
    obtain ⟨items, hlist⟩ := exists_list_of_isDir hdir
    obtain ⟨text, rfl⟩ := hr.1.exists_named hpar hreach.within
    obtain ⟨hi, hloc⟩ := item_of_find? hlist ht
    have hgone := hdone ⟨text, .link⟩ (by rw [listed, hlist]; exact hi) target (hloc ▸ ht)
    exact hloc ▸ hgone

/-- Visiting a listed directory leaves no routed link below it, if walking below it does, unless it
is itself for links. -/
theorem clearItem_spec {n : Nat} {name : String} (h : Remnant s root t) (hp : s.PlainBelow root)
    (hreach : Legible root dir.location) (hclear : Clear root dir.location)
    (hloc : (dir / name).location = dir.location ++ [.named name])
    (hwalk : Clear root (dir / name).location →
      ∃ events u, clearLinks n (dir / name) t = some (events, u) ∧ Progress s root t events u ∧
        ∀ l, RoutedLink s root l → l.below (dir / name).location → u.entries.slot? l = none) :
    ∃ events u, (if isLinkDirName name then some (clearLinkDir (dir / name) t)
        else clearLinks n (dir / name) t) = some (events, u) ∧ Progress s root t events u ∧
      ∀ l, RoutedLink s root l → l.below (dir / name).location → u.entries.slot? l = none := by
  have hpar : (dir / name).location.parent? = some dir.location := by
    rw [hloc, parent?_append_named]
  have hname : IsLinkDir (dir / name).location ↔ isLinkDirName name := by
    rw [hloc, isLinkDir_append_named]
  split
  · rename_i hlink
    have hb : (dir / name).location.below root :=
      below_of_below_of_within (below_of_parent? hpar) hreach.within
    obtain ⟨events, u, hu, hpu, hdone⟩ :=
      clearLinkDir_spec h hp (hloc ▸ hreach.child name) hb (hname.2 hlink) (hclear.above hpar)
    refine ⟨events, u, by rw [hu], hpu, fun l hl hlb => ?_⟩
    exact hdone l hl (hl.2.parent?_eq hb (hname.2 hlink) hlb)
  · rename_i hlink
    exact hwalk (hclear.child hpar fun h => hlink (hname.1 h))

/-- **The first walk** ends, leaves a remnant, and leaves no routed link. -/
theorem clearLinks_spec {n : Nat} (hn : 0 < n) (hdeep : Deep t dir.location n)
    (h : Remnant s root t) (hp : s.PlainBelow root) (hne : root ≠ [])
    (hreach : Legible root dir.location) (hclear : Clear root dir.location) :
    ∃ events u, clearLinks n dir t = some (events, u) ∧ Progress s root t events u ∧
      ∀ l, RoutedLink s root l → l.below dir.location → u.entries.slot? l = none := by
  induction n generalizing dir t with
  | zero => omega
  | succ n ih =>
    have hw := hreach.within
    have hpt := (h.plainBelow hp).dirs hw
    cases hlist : t.list dir with
    | error e =>
      refine ⟨[], t, by simp [clearLinks, hlist], .nil h, fun l _ hb => ?_⟩
      have hdir : t.dirAt dir.location = false := (list_eq_error_iff.1 hlist).1
      exact PathMap.slot?_eq_none_iff.2
        (h.tree.find?_eq_none hdir (ne_nil_of_within hw hne) hb)
    | ok items =>
      have hvisit : ∀ item ∈ items, item.kind = .dir → ∀ events u, Progress s root t events u →
          ∃ more v, (if isLinkDirName item.name then some (clearLinkDir (dir / item.name) u)
              else clearLinks n (dir / item.name) u) = some (more, v) ∧
            Progress s root u more v ∧
            ∀ l, RoutedLink s root l ∧ l.below (dir / item.name).location →
              v.entries.slot? l = none := by
        intro item hi hk events u hu
        obtain ⟨hloc, -⟩ := location_of_dir_item hpt hlist hi hk
        obtain ⟨hpos, hdeepu⟩ := hdeep.item hpt hlist hi hk hu.logged
        obtain ⟨more, v, hv, hpv, hdone⟩ := clearItem_spec hu.remnant hp hreach hclear hloc
          (ih hpos hdeepu hu.remnant (hloc ▸ hreach.child _))
        exact ⟨more, v, hv, hpv, fun l hl => hdone l hl.1 hl.2⟩
      obtain ⟨events, u, hu, hpu, hdone⟩ := overDirs_spec
        (fun name u => if isLinkDirName name then some (clearLinkDir (dir / name) u)
          else clearLinks n (dir / name) u)
        (fun name l => RoutedLink s root l ∧ l.below (dir / name).location) hvisit (.nil h)
      refine ⟨events, u, by rw [clearLinks, hlist]; exact hu, hpu, fun l hl hb => ?_⟩
      refine Classical.byContradiction fun hsome => ?_
      obtain ⟨e, he⟩ := Option.ne_none_iff_exists'.1 hsome
      have hleft := contains_of_find? (hpu.logged.find?_of_eq_some (PathMap.find?_of_slot? he))
      obtain ⟨item, hi, hk, hlb⟩ :=
        exists_dir_of_routed h.tree hpt hlist hw hclear hl.2 hleft hb
      exact hsome (hdone item hi hk l ⟨hl, hlb⟩)

/-! ## Removing directories -/

/-- A loose directory goes when it is tried after all loose directories below it. -/
theorem tryRemove_of_loose (h : Remnant s root t) (hun : Unrouted t root)
    (hl : Loose s root dir.location)
    (hbelow : ∀ d, Loose s root d → d.below dir.location → t.entries.slot? d = none) :
    (tryRemove dir t).2.entries.slot? dir.location = none := by
  unfold tryRemove
  cases hr : t.removeDir dir with
  | ok u => simp [slot?_removeDir hr, within_refl]
  | error e =>
    refine Classical.byContradiction fun hsome => ?_
    have hslot : t.entries.find? dir.location ≠ none := fun hn =>
      hsome (PathMap.slot?_eq_none_iff.2 hn)
    have huser : t.entries.find? dir.location = some (.dir .user) := by
      rw [h.find? hslot, hl.user]
    have hfault : t.removalFault? dir.location = none := by
      refine (removalFault?_eq_none_iff h.tree (dirAt_of_find? huser)).2 ⟨fun hheld => ?_, ?_⟩
      · exact hl.free (h.held_of_unrouted hun hheld)
      · intro d hd hdu
        have hloose := hl.of_within (within_of_below hd) (h.find?_of_eq_some hdu)
        have hgone := PathMap.slot?_eq_none_iff.1 (hbelow d hloose hd)
        rw [hgone] at hdu
        simp at hdu
    have hok := removeDir_eq_ok_iff.2 ⟨huser, hfault, rfl⟩
    rw [hr] at hok
    simp at hok

/-- Where there is no directory, no loose directory is left. -/
theorem Loose.slot?_eq_none {d : Location} (hd : Loose s root d) (h : Remnant s root t)
    (hl : l ≠ []) (hw : d.within l) (hdir : t.dirAt l = false) : t.entries.slot? d = none := by
  refine Classical.byContradiction fun hsome => ?_
  have hdu := h.find? fun hn => hsome (PathMap.slot?_eq_none_iff.2 hn)
  rw [hd.user] at hdu
  rcases within_iff_eq_or_below.1 hw with rfl | hb
  · rw [dirAt_of_find? hdu] at hdir
    contradiction
  · rw [h.tree.find?_eq_none hdir hl hb] at hdu
    simp at hdu

/-- **The second walk** ends, leaves a remnant, and leaves no loose directory. -/
theorem removeTree_spec {n : Nat} (hn : 0 < n) (hdeep : Deep t dir.location n)
    (h : Remnant s root t) (hp : s.PlainBelow root) (hne : root ≠ []) (hun : Unrouted t root)
    (hreach : Legible root dir.location) :
    ∃ events u, removeTree n dir t = some (events, u) ∧ Progress s root t events u ∧
      ∀ d, Loose s root d → d.within dir.location → u.entries.slot? d = none := by
  induction n generalizing dir t with
  | zero => omega
  | succ n ih =>
    have hw := hreach.within
    have hpt := (h.plainBelow hp).dirs hw
    cases hlist : t.list dir with
    | error e =>
      have hdir : t.dirAt dir.location = false := (list_eq_error_iff.1 hlist).1
      have hnone : ∀ d, Loose s root d → d.within dir.location → t.entries.slot? d = none :=
        fun d hd hdw => hd.slot?_eq_none h (ne_nil_of_within hw hne) hdw hdir
      have hstep (event : Event) (he : ∀ p, event ≠ .removed p) : Progress s root t [event] t :=
        ⟨.singleton (fun _ => .inl rfl) he, h⟩
      cases e with
      | enoent => exact ⟨[.absent dir], t, by simp [removeTree, hlist], hstep _ (by simp), hnone⟩
      | _ => exact ⟨[.unlisted dir], t, by simp [removeTree, hlist], hstep _ (by simp), hnone⟩
    | ok items =>
      have hvisit : ∀ item ∈ items, item.kind = .dir → ∀ events u, Progress s root t events u →
          ∃ more v, removeTree n (dir / item.name) u = some (more, v) ∧ Progress s root u more v ∧
            ∀ l, Loose s root l ∧ l.within (dir / item.name).location →
              v.entries.slot? l = none := by
        intro item hi hk events u hu
        obtain ⟨hloc, -⟩ := location_of_dir_item hpt hlist hi hk
        obtain ⟨hpos, hdeepu⟩ := hdeep.item hpt hlist hi hk hu.logged
        obtain ⟨more, v, hv, hpv, hdone⟩ :=
          ih hpos hdeepu hu.remnant (hu.logged.unrouted hun) (hloc ▸ hreach.child _)
        exact ⟨more, v, hv, hpv, fun l hl => hdone l hl.1 hl.2⟩
      obtain ⟨events, u, hu, hpu, hdone⟩ := overDirs_spec
        (fun name u => removeTree n (dir / name) u)
        (fun name l => Loose s root l ∧ l.within (dir / name).location) hvisit (.nil h)
      have hbelow : ∀ d, Loose s root d → d.below dir.location → u.entries.slot? d = none := by
        intro d hd hb
        refine Classical.byContradiction fun hsome => ?_
        obtain ⟨e, he⟩ := Option.ne_none_iff_exists'.1 hsome
        have htd := hpu.logged.find?_of_eq_some (PathMap.find?_of_slot? he)
        have huser : t.entries.find? d = some (.dir .user) := by
          rw [h.find? (by simp [htd]), hd.user]
        have hread := (hd.legible d (within_refl d) hd.user).of_within hw (within_of_below hb)
        obtain ⟨item, hi, hk, hri⟩ := exists_dir_of_legible h.tree hlist
          (contains_of_find? huser) hread (ne_of_below hb) fun _ => dirAt_of_find? huser
        exact hsome (hdone item hi hk d ⟨hd, hri.within⟩)
      have hremove := progress_tryRemove dir hpu.remnant hreach
      refine ⟨_, _, by rw [removeTree, hlist]; simp only [hu], hpu.append hremove, ?_⟩
      intro d hd hdw
      rcases within_iff_eq_or_below.1 hdw with rfl | hb
      · exact tryRemove_of_loose hpu.remnant (hpu.logged.unrouted hun) hd hbelow
      · exact hremove.logged.slot?_eq_none (hbelow d hd hb)

/-! ## Both walks -/

/-- From the root, the first walk takes every routed link. -/
theorem clearLinks_root_spec {root : Path} (hs : s.IsTree) (hp : s.PlainBelow root.location)
    (hne : root.location ≠ []) :
    ∃ events t, clearLinks (budget s) root s = some (events, t) ∧
      Progress s root.location s events t ∧
      (∀ l, RoutedLink s root.location l → t.entries.slot? l = none) ∧
      Unrouted t root.location := by
  obtain ⟨events, t, ht, hpt, hlinks⟩ := clearLinks_spec (show 0 < budget s from Nat.succ_pos _)
    (deep_budget hs hne) (.refl hs) hp hne (legible_refl _) (clear_root _)
  refine ⟨events, t, ht, hpt, fun l hl => hlinks l hl hl.2.below, ?_⟩
  rintro l ⟨⟨target, hl⟩, hr⟩
  have hgone := hlinks l ⟨⟨target, hpt.remnant.find?_of_eq_some hl⟩, hr⟩ hr.below
  rw [PathMap.slot?_eq_none_iff.1 hgone] at hl
  simp at hl

/-- **Teardown takes exactly what is lost.** On a tree whose entries below the root end in plain
names the walks end; they leave every other entry as it was, and the log tells which directories of
users went. -/
theorem removeTopology_spec {root : Path} (hs : s.IsTree) (hp : s.PlainBelow root.location)
    (hne : root.location ≠ []) :
    ∃ events t, removeTopology root s = some (events, t) ∧ Logged s events t ∧
      ∀ l, (Lost s root.location l → t.entries.slot? l = none) ∧
        (¬Lost s root.location l → t.entries.slot? l = s.entries.slot? l) := by
  obtain ⟨events, t, ht, hpt, hlinks, hun⟩ := clearLinks_root_spec hs hp hne
  obtain ⟨more, u, hu, hpu, hloose⟩ := removeTree_spec
    (show 0 < budget t from Nat.succ_pos _) (deep_budget hpt.remnant.tree hne) hpt.remnant hp hne
    hun (legible_refl _)
  refine ⟨events ++ more, u, by rw [removeTopology, ht]; simp only [hu, Option.map_some],
    hpt.logged.append hpu.logged, fun l => ⟨fun hlost => ?_, fun hlost => ?_⟩⟩
  · rcases hlost with hl | ⟨d, hd, hw⟩
    · exact hpu.logged.slot?_eq_none (hlinks l hl)
    · have hdne := ne_nil_of_within hd.within hne
      have hgone := PathMap.slot?_eq_none_iff.1 (hloose d hd hd.within)
      exact PathMap.slot?_eq_none_iff.2 (hpu.remnant.tree.find?_eq_none_of_within hgone hdne hw)
  · rcases hpu.remnant.slot l with he | ⟨-, h⟩
    · exact he
    · exact absurd h hlost

end DisplayTopology.Teardown
