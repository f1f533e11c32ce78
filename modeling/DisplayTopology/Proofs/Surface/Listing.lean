import DisplayTopology.Proofs.Surface.Hierarchy
import DisplayTopology.Script.Surface
import Mathlib.Data.List.Forall2

/-!
# What a listing shows

A directory lists the entries that lie directly in it, each by one item (`list_faithful`). The
entries come in order of location (`pairwise_children`), so in the order of their last steps. Steps
that are no names come first, and are listed with the empty name, which leads back to the directory.
Then come the names. Those that are text are listed as they are, in byte order, and lead to their
entries; others show replacement characters, lead elsewhere, and may coincide
(`list_faithful_illegible`). What lies below the entries of the directory, or in a directory whose
name begins alike, is not among them, however the keys of the surface and the path of the directory
are spelled.
-/

namespace DisplayTopology

/-- The name of an entry is this text. -/
def NamedBy (e : Path × Entry) (text : String) : Prop :=
  e.1.location.getLast? = some (.named text)

/-- An item lists an entry by what its name shows. A name that is text is listed as it is, and leads
from the directory to the entry. -/
structure Item.ByName (dir : Path) (e : Path × Entry) (item : Item) : Prop where
  kind : item.kind = e.2.kind
  shown : ∃ name, e.1.location.getLast? = some (.plain name) ∧ item.name = name.shown
  text : ∀ text, NamedBy e text → item.name = text
  leads : ∀ text, NamedBy e text → (dir / item.name).location = e.1.location

/-- An item lists an entry that has no name, being a parent step or the current directory, by the
empty name, which leads back to the directory. -/
structure Item.Unnamed (dir : Path) (e : Path × Entry) (item : Item) : Prop where
  kind : item.kind = e.2.kind
  last : e.1.location.getLast? = some .parent ∨ e.1.location = [.current]
  name : item.name = ""
  leads : (dir / item.name).location = dir.location

namespace Surface

open Location

variable {s : Surface} {dir : Path} {l : Location} {e : Path × Entry} {name : Bytes} {text : String}

/-- What a directory lists: one item for every entry that lies in it, first for those without a name
and then for the others, those whose names are text in byte order. -/
structure Listing (s : Surface) (dir : Path) (unnamed named : List (Path × Entry))
    (first others : List Item) : Prop where
  once : (unnamed ++ named).Nodup
  complete : ∀ e, e ∈ unnamed ++ named ↔ e ∈ s.entries.entries ∧
    ∃ parent, e.1.parent? = some parent ∧ parent.location = dir.location
  distinct : (named.zip others).Pairwise fun a b =>
    ∀ s t, NamedBy a.1 s → NamedBy b.1 t → a.2.name ≠ b.2.name
  sorted : (named.zip others).Pairwise fun a b =>
    ∀ s t, NamedBy a.1 s → NamedBy b.1 t → Bytes.encode a.2.name < Bytes.encode b.2.name
  unnamed : List.Forall₂ (Item.Unnamed dir) unnamed first
  named : List.Forall₂ (Item.ByName dir) named others

/-! ## The entries of a directory -/

/-- Entries of a directory come in strict order of location. -/
theorem pairwise_children (s : Surface) (l : Location) :
    (s.children l).Pairwise fun a b => compare a.1.location b.1.location = .lt :=
  ((Trie.sorted_entries (s.entries.placed_below l)).sublist (Trie.level_sublist_entries _)).filter _

theorem nodup_children (s : Surface) (l : Location) : (s.children l).Nodup :=
  (pairwise_children s l).imp fun hlt heq => by simp [heq] at hlt

/-- The entries of a directory are those whose parent has its location. -/
theorem mem_children_iff_parent? : e ∈ s.children l ↔
    e ∈ s.entries.entries ∧ ∃ parent, e.1.parent? = some parent ∧ parent.location = l := by
  rw [mem_children_iff, ← Path.location_parent?, Option.map_eq_some_iff]

/-- What lies in a directory ends in a name or in a parent step, or is the current directory. -/
theorem location_of_child (he : e ∈ s.children l) : (∃ name, e.1.location = l ++ [.plain name]) ∨
    e.1.location = l ++ [.parent] ∨ e.1.location = [.current] := by
  obtain ⟨c, hroot, hloc⟩ := parent?_eq_some_iff.1 (mem_children_iff.1 he).2
  cases c with
  | root => exact absurd rfl hroot
  | parent => exact .inr (.inl hloc)
  | plain name => exact .inl ⟨name, hloc⟩
  | current =>
    -- a step that stays stands in front only, so nothing is before it
    cases l with
    | nil => exact .inr (.inr hloc)
    | cons c l =>
      have hmem : .current ∈ e.1.location.tail := by simp [hloc]
      simpa using Path.mem_tail_location hmem

/-- An entry with a name lies one plain step below, and is listed by what the name shows. -/
theorem location_of_name? (he : e ∈ s.children l) (hname : e.1.name? = some name) :
    e.1.location = l ++ [.plain name] ∧ (Item.ofEntry e).name = name.shown := by
  refine ⟨?_, by rw [Item.ofEntry, hname]; rfl⟩
  obtain ⟨front, hfront⟩ := eq_append_plain_of_name? hname
  have hpar := (mem_children_iff.1 he).2
  rw [hfront, parent?_append_plain] at hpar
  rw [hfront, Option.some.inj hpar]

theorem namedBy_iff_name? : NamedBy e text ↔ e.1.name? = some (Bytes.encode text) := by
  rw [NamedBy, Path.name?, name?]
  rcases e.1.location.getLast? with _ | _ | _ | _ | _ <;>
    simp [Component.named, Component.name?]

/-- An item leads one step on, and the step is text. -/
theorem location_ofEntry (he : e ∈ s.children dir.location) (hname : e.1.name? = some name) :
    (dir / (Item.ofEntry e).name).location = dir.location ++ [.named (Item.ofEntry e).name] := by
  obtain ⟨hloc, hshown⟩ := location_of_name? he hname
  have hplain : IsName name := Path.isName_of_mem_location (p := e.1) (by rw [hloc]; simp)
  rw [hshown, dir.location_child (Path.isName_shown hplain)]

/-- An entry whose name is text lies where its item leads. -/
theorem location_of_namedBy (he : e ∈ s.children l) (h : NamedBy e text) :
    e.1.location = l ++ [.named text] ∧ (Item.ofEntry e).name = text := by
  obtain ⟨hloc, hshown⟩ := location_of_name? he (namedBy_iff_name?.1 h)
  exact ⟨hloc, by rw [hshown, Bytes.shown_encode]⟩

/-- An entry with a name is listed by it. -/
theorem byName_of_child (he : e ∈ s.children dir.location) (hname : e.1.name? = some name) :
    Item.ByName dir e (Item.ofEntry e) := by
  obtain ⟨hloc, hshown⟩ := location_of_name? he hname
  refine ⟨rfl, ⟨name, by rw [hloc, List.getLast?_concat], hshown⟩, fun text h => ?_,
    fun text h => ?_⟩
  · exact (location_of_namedBy he h).2
  · obtain ⟨htext, hitem⟩ := location_of_namedBy he h
    rw [location_ofEntry he hname, hitem, htext]

/-- An entry without a name is listed by the empty name. -/
theorem unnamed_of_child (he : e ∈ s.children dir.location) (hname : e.1.name? = none) :
    Item.Unnamed dir e (Item.ofEntry e) := by
  have hitem : (Item.ofEntry e).name = "" := by rw [Item.ofEntry, hname]; rfl
  refine ⟨rfl, ?_, hitem, by rw [hitem, dir.location_empty_name]⟩
  rcases location_of_child he with ⟨name, hloc⟩ | hloc | hloc
  · simp [Path.name?, hloc] at hname
  · exact .inl (by simp [hloc])
  · exact .inr hloc

/-! ## Their order -/

/-- What comes after an entry with a name in a directory has a later name. -/
theorem exists_name_of_compare {a b : Path × Entry} (ha : a.1.location = l ++ [.plain name])
    (hb : b ∈ s.children l) (h : compare a.1.location b.1.location = .lt) :
    ∃ other, b.1.location = l ++ [.plain other] ∧ name < other := by
  obtain ⟨c, -, hloc⟩ := parent?_eq_some_iff.1 (mem_children_iff.1 hb).2
  rw [ha, hloc, compare_append_singleton] at h
  obtain ⟨other, rfl⟩ := Component.exists_plain_of_compare h
  exact ⟨other, hloc, Component.compare_plain_eq_lt_iff.1 h⟩

/-- The entries without a name come first, and names in byte order. -/
theorem pairwise_names (s : Surface) (dir : Path) : (s.children dir.location).Pairwise fun a b =>
    ∀ name, a.1.name? = some name → ∃ other, b.1.name? = some other ∧ name < other := by
  refine (pairwise_children s dir.location).imp_of_mem fun {a b} ha hb hlt name hname => ?_
  obtain ⟨other, hother, hless⟩ := exists_name_of_compare (location_of_name? ha hname).1 hb hlt
  exact ⟨other, by rw [Path.name?, hother, name?_append_plain], hless⟩

/-- Names that are text are listed in byte order. -/
theorem pairwise_texts (s : Surface) (dir : Path) : (s.children dir.location).Pairwise fun a b =>
    ∀ s t, NamedBy a s → NamedBy b t →
      Bytes.encode (Item.ofEntry a).name < Bytes.encode (Item.ofEntry b).name := by
  refine (pairwise_names s dir).imp_of_mem fun {a b} ha hb hlt s t hs ht => ?_
  obtain ⟨other, hother, hless⟩ := hlt _ (namedBy_iff_name?.1 hs)
  rw [namedBy_iff_name?.1 ht, Option.some.injEq] at hother
  rw [(location_of_namedBy ha hs).2, (location_of_namedBy hb ht).2, hother]
  exact hless

/-- A list in which what has a property is followed by nothing without it has two parts. -/
theorem exists_append_of_pairwise {α : Type} {p : α → Prop} {xs : List α}
    (h : xs.Pairwise fun a b => p a → p b) :
    ∃ front back, xs = front ++ back ∧ (∀ a ∈ front, ¬p a) ∧ ∀ a ∈ back, p a := by
  induction xs with
  | nil => exact ⟨[], [], by simp⟩
  | cons a xs ih =>
    obtain ⟨hfirst, hrest⟩ := List.pairwise_cons.1 h
    by_cases ha : p a
    · refine ⟨[], a :: xs, rfl, by simp, fun b hb => ?_⟩
      rcases List.mem_cons.1 hb with rfl | hb
      · exact ha
      · exact hfirst b hb ha
    · obtain ⟨front, back, rfl, hfront, hback⟩ := ih hrest
      exact ⟨a :: front, back, rfl, List.forall_mem_cons.2 ⟨ha, hfront⟩, hback⟩

/-- **A listing is complete, and sorted and faithful where names are text.** -/
theorem list_faithful (h : s.isDir dir) : ∃ unnamed named first others,
    s.list dir = .ok (first ++ others) ∧ Listing s dir unnamed named first others := by
  obtain ⟨unnamed, named, hsplit, hunnamed, hnamed⟩ :=
    exists_append_of_pairwise (p := fun e => e.1.name? ≠ none)
      ((pairwise_names s dir).imp fun {a b} hab ha => by
        obtain ⟨name, hname⟩ := Option.ne_none_iff_exists'.1 ha
        obtain ⟨other, hother, -⟩ := hab name hname
        simp [hother])
  have hmem {e : Path × Entry} (he : e ∈ unnamed ++ named) : e ∈ s.children dir.location :=
    hsplit ▸ he
  refine ⟨unnamed, named, unnamed.map Item.ofEntry, named.map Item.ofEntry, ?_, ?_⟩
  · exact list_eq_ok_iff.2 ⟨h, by rw [hsplit, List.map_append]⟩
  have hsorted : (named.zip (named.map Item.ofEntry)).Pairwise fun a b =>
      ∀ s t, NamedBy a.1 s → NamedBy b.1 t → Bytes.encode a.2.name < Bytes.encode b.2.name := by
    have htexts := pairwise_texts s dir
    rw [hsplit] at htexts
    rw [← List.map_prod_left_eq_zip, List.pairwise_map]
    exact (List.pairwise_append.1 htexts).2.1
  refine ⟨hsplit ▸ nodup_children s dir.location, fun e => ?_, ?_, hsorted, ?_, ?_⟩
  · rw [← hsplit, mem_children_iff_parent?]
  · refine hsorted.imp fun hlt s t hs ht heq => ?_
    have hless := hlt s t hs ht
    rw [heq] at hless
    exact List.lt_irrefl _ hless
  · refine List.forall₂_map_right_iff.2 (List.forall₂_same.2 fun e he => ?_)
    exact unnamed_of_child (hmem (List.mem_append_left _ he)) (not_not.1 (hunnamed e he))
  · refine List.forall₂_map_right_iff.2 (List.forall₂_same.2 fun e he => ?_)
    obtain ⟨name, hname⟩ := Option.ne_none_iff_exists'.1 (hnamed e he)
    exact byName_of_child (hmem (List.mem_append_right _ he)) hname

/-- A surface of relative paths: the empty path holds the current directory, a directory above, and
three names, and below them lie more. -/
def relativeSurface : Surface :=
  SurfaceCall.runAll .empty
    [.addKernelDirs (.ofText "z"), .createDir (.ofText ".."), .createDir (.ofText "."),
      .createDir (.ofText "./a"), .createDir (.ofText "z/.."), .write (.ofText "é/") [],
      .createLink (.ofText "z") (.ofText "😀//."), .write (.ofText "z//é") []]

theorem list_faithful_relativeSurface :
    relativeSurface.isDir (.ofText "") ∧
      relativeSurface.list (.ofText "") = .ok
        [⟨"", .dir⟩, ⟨"", .dir⟩, ⟨"z", .dir⟩, ⟨"é", .file⟩, ⟨"😀", .link⟩] ∧
      ∃ unnamed named first others, relativeSurface.list (.ofText "") = .ok (first ++ others) ∧
        Listing relativeSurface (.ofText "") unnamed named first others := by
  have hdir : relativeSurface.isDir (.ofText "") := by decide +kernel
  exact ⟨hdir, by decide +kernel, list_faithful hdir⟩

/-- A surface with a directory of three: the names of two are single bytes that are no text, and the
name of the third is text. -/
def illegibleSurface : Surface :=
  SurfaceCall.runAll .empty
    [.createDir (.ofText "/r"), .createDir (.ofBytes (Bytes.encode "/r/" ++ [0xFE])),
      .createDir (.ofBytes (Bytes.encode "/r/" ++ [0xFF])), .createDir (.ofText "/r/😀")]

/-- The path of one of the two directories whose names are no text. -/
def illegiblePath : Path := .ofBytes (Bytes.encode "/r/" ++ [0xFF])

/-- Names that are no text are listed alike, not in order, and lead to no entry. -/
theorem list_faithful_illegible :
    illegibleSurface.isDir (.ofText "/r") ∧ illegibleSurface.isDir illegiblePath ∧
      illegiblePath.location.parent? = some (Path.ofText "/r").location ∧
      illegiblePath.name? = some [0xFF] ∧
      illegibleSurface.list (.ofText "/r") = .ok
        [⟨"😀", .dir⟩, ⟨"\uFFFD", .dir⟩, ⟨"\uFFFD", .dir⟩] ∧
      Bytes.encode "\uFFFD" < Bytes.encode "😀" ∧
      illegibleSurface.contains (Path.ofText "/r" / "\uFFFD") = false := by
  decide +kernel

end Surface

end DisplayTopology
