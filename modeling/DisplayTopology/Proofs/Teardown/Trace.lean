import DisplayTopology.Proofs.Teardown.Walks

/-!
# The trace of a teardown

Every event of a walk tells of one call on the surface: a link that was unlinked or could not be, a
directory that was removed or could not be, a listing that failed (`Tells`). The events of a walk,
in order, are a `Trace` of it, and all of them tell of paths at or below the root. That holds on any
surface (`trace_removeTopology`), so what a walk does can be read off its log call by call.

On a tree a call takes at most one link and at most one directory of a user, and its event says
which. So a trace lists the links that went, and the directories of users that went, each of them
once (`Trace.lists`).
-/

namespace DisplayTopology

/-- The path that an event is about. -/
def Event.path : Event → Path
  | unlinked p | kept p | removed p | refused p _ | absent p | unlisted p => p

namespace Teardown

open Location Surface

/-- An event tells of a call and of the surface after it. -/
inductive Tells (s : Surface) : Event → Surface → Prop where
  | unlinked {p : Path} {t : Surface} (h : s.removeLink p = .ok t) : Tells s (.unlinked p) t
  | kept {p : Path} {e : Errno} (h : s.removeLink p = .error e) : Tells s (.kept p) s
  | removed {p : Path} {t : Surface} (h : s.removeDir p = .ok t) : Tells s (.removed p) t
  | refused {p : Path} {e : Errno} (h : s.removeDir p = .error e) : Tells s (.refused p e) s
  | absent {p : Path} (h : s.list p = .error .enoent) : Tells s (.absent p) s
  | unlisted {p : Path} {e : Errno} (h : s.list p = .error e) : Tells s (.unlisted p) s

/-- Events tell, one after the other, of calls at or below a root. -/
inductive Trace (root : Location) : Surface → List Event → Surface → Prop where
  | nil (s : Surface) : Trace root s [] s
  | cons {s t u : Surface} {event : Event} {events : List Event}
      (hw : event.path.location.within root) (h : Tells s event t) (rest : Trace root t events u) :
      Trace root s (event :: events) u

variable {s t u : Surface} {root l : Location} {dir : Path} {event : Event}
  {events more : List Event} {items : List Item} {visit : String → Surface → Option Walked}

theorem Trace.single (hw : event.path.location.within root) (h : Tells s event t) :
    Trace root s [event] t :=
  .cons hw h (.nil t)

theorem trace_append_iff :
    Trace root s (events ++ more) u ↔ ∃ t, Trace root s events t ∧ Trace root t more u := by
  induction events generalizing s with
  | nil =>
    refine ⟨fun h => ⟨s, .nil s, h⟩, ?_⟩
    rintro ⟨t, h, hmore⟩
    cases h
    exact hmore
  | cons event events ih =>
    constructor
    · intro h
      cases h with
      | cons hw h rest =>
        obtain ⟨t, hevents, hmore⟩ := ih.1 rest
        exact ⟨t, .cons hw h hevents, hmore⟩
    · rintro ⟨t, h, hmore⟩
      cases h with
      | cons hw h rest => exact .cons hw h (ih.2 ⟨t, rest, hmore⟩)

theorem Trace.append (h : Trace root s events t) (hmore : Trace root t more u) :
    Trace root s (events ++ more) u :=
  trace_append_iff.2 ⟨t, h, hmore⟩

/-! ## Walks have traces -/

/-- The item of what has a name leads into the directory, and that of anything else back to it. -/
theorem within_item (h : s.list dir = .ok items) {item : Item} (hi : item ∈ items) :
    (dir / item.name).location.within dir.location := by
  obtain ⟨-, rfl⟩ := list_eq_ok_iff.1 h
  obtain ⟨e, he, rfl⟩ := List.mem_map.1 hi
  cases hn : e.1.name? with
  | none =>
    rw [(unnamed_of_child he hn).leads]
    exact within_refl _
  | some name =>
    rw [location_ofEntry he hn]
    exact within_append ..

theorem within_item_root (hw : dir.location.within root) (h : s.list dir = .ok items) {item : Item}
    (hi : item ∈ items) : (dir / item.name).location.within root :=
  within_trans (within_item h hi) hw

theorem trace_tryRemove (s : Surface) (hw : dir.location.within root) :
    Trace root s [(tryRemove dir s).1] (tryRemove dir s).2 := by
  unfold tryRemove
  cases hr : s.removeDir dir with
  | ok t => exact .single hw (.removed hr)
  | error e => exact .single hw (.refused hr)

theorem trace_unlinkAll (s : Surface)
    (hw : ∀ item ∈ items, (dir / item.name).location.within root) :
    Trace root s (unlinkAll dir items s).1 (unlinkAll dir items s).2 := by
  induction items generalizing s with
  | nil => exact .nil s
  | cons item items ih =>
    obtain ⟨hitem, hitems⟩ := List.forall_mem_cons.1 hw
    rw [unlinkAll]
    cases hr : s.removeLink (dir / item.name) with
    | ok t => exact .cons hitem (.unlinked hr) (ih t hitems)
    | error e => exact .cons hitem (.kept hr) (ih s hitems)

theorem trace_clearLinkDir (s : Surface) (hw : dir.location.within root) :
    Trace root s (clearLinkDir dir s).1 (clearLinkDir dir s).2 := by
  refine (trace_unlinkAll s fun item hi => ?_).append (trace_tryRemove _ hw)
  unfold listed at hi
  split at hi
  · rename_i items hlist
    exact within_item_root hw hlist hi
  · simp at hi

/-- A relation that composes along a log holds over all visits if it holds over each. -/
theorem rel_overDirs {R : Surface → List Event → Surface → Prop} (hnil : ∀ s, R s [] s)
    (happend : ∀ s t u events more, R s events t → R t more u → R s (events ++ more) u)
    (hvisit : ∀ item ∈ items, item.kind = .dir → ∀ done u more v, R s done u →
      visit item.name u = some (more, v) → R u more v)
    (hrun : overDirs visit items s = some (events, t)) : R s events t := by
  suffices key : ∀ done u, R s done u → overDirs visit items u = some (events, t) →
      R u events t from key [] s (hnil s) hrun
  clear hrun
  induction items generalizing events with
  | nil =>
    intro done u _ h
    obtain ⟨rfl, rfl⟩ : [] = events ∧ u = t := by simpa [overDirs] using h
    exact hnil u
  | cons item items ih =>
    intro done u hu h
    have hrest := fun i hi => hvisit i (List.mem_cons_of_mem item hi)
    rw [overDirs] at h
    split at h
    · rename_i hk
      split at h
      · simp at h
      · rename_i first v hv
        obtain ⟨⟨rest, w⟩, hw, heq⟩ := Option.map_eq_some_iff.1 h
        obtain ⟨rfl, rfl⟩ := Prod.mk.inj heq
        have hfirst := hvisit item List.mem_cons_self hk done u first v hu hv
        exact happend _ _ _ _ _ hfirst (ih hrest _ v (happend _ _ _ _ _ hu hfirst) hw)
    · exact ih hrest done u hu h

/-- Visiting listed directories has a trace if every visit has one. -/
theorem trace_overDirs
    (hvisit : ∀ item ∈ items, ∀ s events t, visit item.name s = some (events, t) →
      Trace root s events t)
    (h : overDirs visit items s = some (events, t)) : Trace root s events t := by
  refine rel_overDirs (R := Trace root) .nil ?_ ?_ h
  · intro s t u events more hfirst hmore
    exact hfirst.append hmore
  · intro item hi _ _ u more v _ hv
    exact hvisit item hi u more v hv

theorem trace_clearLinks {n : Nat} (hw : dir.location.within root)
    (h : clearLinks n dir s = some (events, t)) : Trace root s events t := by
  induction n generalizing dir s events t with
  | zero => simp [clearLinks] at h
  | succ n ih =>
    rw [clearLinks] at h
    split at h
    · obtain ⟨rfl, rfl⟩ : [] = events ∧ s = t := by simpa using h
      exact .nil s
    · rename_i items hlist
      refine trace_overDirs (fun item hi s events t hv => ?_) h
      have hitem := within_item_root hw hlist hi
      split at hv
      · obtain ⟨rfl, rfl⟩ := Prod.ext_iff.1 (Option.some.inj hv)
        exact trace_clearLinkDir s hitem
      · exact ih hitem hv

theorem trace_removeTree {n : Nat} (hw : dir.location.within root)
    (h : removeTree n dir s = some (events, t)) : Trace root s events t := by
  induction n generalizing dir s events t with
  | zero => simp [removeTree] at h
  | succ n ih =>
    rw [removeTree] at h
    split at h
    · rename_i hlist
      obtain ⟨rfl, rfl⟩ : [.absent dir] = events ∧ s = t := by simpa using h
      exact .single hw (.absent hlist)
    · rename_i e _ hlist
      obtain ⟨rfl, rfl⟩ : [.unlisted dir] = events ∧ s = t := by simpa using h
      exact .single hw (.unlisted hlist)
    · rename_i items hlist
      split at h
      · simp at h
      · rename_i first v hv
        obtain ⟨rfl, rfl⟩ : first ++ [(tryRemove dir v).1] = events ∧ (tryRemove dir v).2 = t :=
          Prod.ext_iff.1 (Option.some.inj h)
        have hfirst := trace_overDirs
          (fun item hi s events t hv => ih (within_item_root hw hlist hi) hv) hv
        exact hfirst.append (trace_tryRemove v hw)

/-- **Both walks have a trace**, on any surface. -/
theorem trace_removeTopology {root : Path} (h : removeTopology root s = some (events, t)) :
    Trace root.location s events t := by
  rw [removeTopology] at h
  split at h
  · simp at h
  · rename_i first v hv
    obtain ⟨⟨rest, w⟩, hrest, hw⟩ := Option.map_eq_some_iff.1 h
    obtain ⟨rfl, rfl⟩ := Prod.mk.inj hw
    exact (trace_clearLinks (within_refl _) hv).append (trace_removeTree (within_refl _) hrest)

/-! ## What a trace takes -/

theorem Tells.isTree (hs : s.IsTree) (h : Tells s event t) : t.IsTree := by
  cases h with
  | unlinked h => exact hs.removeLink h
  | removed h => exact hs.removeDir h
  | kept | refused | absent | unlisted => exact hs

theorem Tells.logged (hs : s.IsTree) (h : Tells s event t) : Logged s [event] t := by
  cases h with
  | unlinked h => exact .removeLink h
  | removed h => exact .removeDir hs h
  | kept | refused | absent | unlisted => exact .singleton (fun _ => .inl rfl) (by simp)

theorem Trace.isTree (hs : s.IsTree) (h : Trace root s events t) : t.IsTree := by
  induction h with
  | nil => exact hs
  | cons _ h _ ih => exact ih (h.isTree hs)

theorem Trace.logged (hs : s.IsTree) (h : Trace root s events t) : Logged s events t := by
  induction h with
  | nil s => exact .nil s
  | cons _ h _ ih => exact (h.logged hs).append (ih (h.isTree hs))

/-- The paths that events are listed for are, each once, those of the counted entries that went. -/
structure Lists (pick : Event → Option Path) (Counted : Entry → Prop) (s : Surface)
    (events : List Event) (t : Surface) : Prop where
  nodup : ((events.filterMap pick).map Path.location).Nodup
  mem_iff : ∀ l, l ∈ (events.filterMap pick).map Path.location ↔
    (∃ e, s.entries.find? l = some e ∧ Counted e) ∧ t.entries.find? l = none

section Lists

variable {pick : Event → Option Path} {Counted : Entry → Prop}

theorem Lists.nil (s : Surface) : Lists pick Counted s [] s := by
  refine ⟨by simp, fun l => ⟨by simp, ?_⟩⟩
  rintro ⟨⟨e, he, -⟩, hn⟩
  simp [he] at hn

/-- An event that is listed for no path goes with a call that takes no counted entry. -/
theorem Lists.skip (hpick : pick event = none)
    (h : ∀ l e, s.entries.find? l = some e → Counted e → t.entries.find? l ≠ none) :
    Lists pick Counted s [event] t := by
  refine ⟨by simp [hpick], fun l => ⟨by simp [hpick], ?_⟩⟩
  rintro ⟨⟨e, he, hc⟩, hn⟩
  exact absurd hn (h l e he hc)

/-- An event that is listed for a path goes with a call that takes the counted entry there. -/
theorem Lists.take {p : Path} {e : Entry} (hpick : pick event = some p)
    (hbefore : s.entries.find? p.location = some e) (hcount : Counted e)
    (hafter : t.entries.find? p.location = none)
    (h : ∀ l e, l ≠ p.location → s.entries.find? l = some e → Counted e →
      t.entries.find? l ≠ none) : Lists pick Counted s [event] t := by
  refine ⟨by simp [hpick], fun l => ?_⟩
  have hmem : l ∈ ([event].filterMap pick).map Path.location ↔ l = p.location := by simp [hpick]
  rw [hmem]
  constructor
  · rintro rfl
    exact ⟨⟨e, hbefore, hcount⟩, hafter⟩
  · rintro ⟨⟨e, he, hc⟩, hn⟩
    exact Classical.byContradiction fun hne => h l e hne he hc hn

/-- What went before is not there to go again. -/
theorem Lists.append (hlog : Logged s events t) (hlog' : Logged t more u)
    (h : Lists pick Counted s events t) (h' : Lists pick Counted t more u) :
    Lists pick Counted s (events ++ more) u := by
  refine ⟨?_, fun l => ?_⟩
  · rw [List.filterMap_append, List.map_append]
    refine List.nodup_append.2 ⟨h.nodup, h'.nodup, ?_⟩
    rintro l hl _ hl' rfl
    obtain ⟨-, hn⟩ := (h.mem_iff l).1 hl
    obtain ⟨⟨e, he, -⟩, -⟩ := (h'.mem_iff l).1 hl'
    simp [he] at hn
  · rw [List.filterMap_append, List.map_append, List.mem_append, h.mem_iff, h'.mem_iff]
    constructor
    · rintro (⟨he, hn⟩ | ⟨⟨e, he, hc⟩, hn⟩)
      · exact ⟨he, hlog'.find?_eq_none hn⟩
      · exact ⟨⟨e, hlog.find?_of_eq_some he, hc⟩, hn⟩
    · rintro ⟨⟨e, he, hc⟩, hn⟩
      rcases hlog.find? l with heq | hnone
      · exact .inr ⟨⟨e, heq.trans he, hc⟩, hn⟩
      · exact .inl ⟨⟨e, he, hc⟩, hnone⟩

/-- **A trace lists what went**, if every event does. -/
theorem Trace.lists
    (hstep : ∀ s event t, s.IsTree → Tells s event t → Lists pick Counted s [event] t)
    (hs : s.IsTree) (h : Trace root s events t) : Lists pick Counted s events t := by
  induction h with
  | nil s => exact .nil s
  | cons _ h rest ih =>
    have ht := h.isTree hs
    exact .append (h.logged hs) (rest.logged ht) (hstep _ _ _ hs h) (ih ht)

end Lists

/-- Links. -/
def IsLink (e : Entry) : Prop := ∃ target, e = .link target

/-- A call that unlinks takes one link, and one that removes a directory takes none. -/
theorem Tells.lists_unlinked (hs : s.IsTree) (h : Tells s event t) :
    Lists Event.unlinked? IsLink s [event] t := by
  cases h with
  | unlinked h =>
    obtain ⟨⟨target, hl⟩, -⟩ := removeLink_eq_ok_iff.1 h
    refine .take rfl hl ⟨target, rfl⟩ (by simp [find?_of_removeLink h]) fun l e hne he _ => ?_
    simp [find?_of_removeLink h, hne, he]
  | removed h =>
    obtain ⟨huser, hfault, -⟩ := removeDir_eq_ok_iff.1 h
    have hfree := ((removalFault?_eq_none_iff hs (dirAt_of_find? huser)).1 hfault).1
    refine .skip rfl ?_
    rintro l e he ⟨target, rfl⟩
    rw [find?_of_removeDir h, if_neg]
    · simp [he]
    · intro hw
      rcases within_iff_eq_or_below.1 hw with rfl | hb
      · rw [Surface.entry?, he] at huser
        simp at huser
      · exact hfree (.inr ⟨l, target, he, trivial, .inl hb⟩)
  | kept | refused | absent | unlisted => exact .skip rfl fun l e he _ => by simp [he]

/-- A call that removes a directory takes no other directory of a user along. -/
theorem Tells.lists_removed (hs : s.IsTree) (h : Tells s event t) :
    Lists Event.removed? (· = .dir .user) s [event] t := by
  cases h with
  | unlinked h =>
    obtain ⟨⟨target, hl⟩, -⟩ := removeLink_eq_ok_iff.1 h
    refine .skip rfl ?_
    rintro l e he rfl
    rw [find?_of_removeLink h, if_neg]
    · simp [he]
    · rintro rfl
      rw [Surface.entry?, he] at hl
      simp at hl
  | removed h =>
    obtain ⟨huser, hfault, -⟩ := removeDir_eq_ok_iff.1 h
    have hbelow := ((removalFault?_eq_none_iff hs (dirAt_of_find? huser)).1 hfault).2
    refine .take rfl huser rfl (by simp [find?_of_removeDir h, within_refl]) ?_
    rintro l e hne he rfl
    rw [find?_of_removeDir h, if_neg]
    · simp [he]
    · exact fun hw => hbelow l (below_of_within_of_ne hw hne) he
  | kept | refused | absent | unlisted => exact .skip rfl fun l e he _ => by simp [he]

end Teardown

end DisplayTopology
