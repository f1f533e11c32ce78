import DisplayTopology.Path.Location

/-!
# Paths

A path is a spelling in bytes, kept as it was given, together with the location that the spelling
names. Paths are found, ordered and compared by location, and shown as text. Joining goes on with
both: a relative path adds its spelling, and its steps to the location (`Path.location_join`,
`Path.location_child`).

The name of an entry can be any bytes but those that separate and skip (`Location.IsName`). What it
shows is again a name (`Path.isName_shown`), and the same one only if it is text.
-/

namespace DisplayTopology

/-- A path: its spelling, and the location read off it. -/
structure Path where
  bytes : Bytes
  location : Location
  location_eq : location = Location.ofBytes bytes

namespace Path

/-- The path with this spelling. -/
def ofBytes (bytes : Bytes) : Path := ⟨bytes, Location.ofBytes bytes, rfl⟩

/-- The path that is spelled as this text. -/
def ofText (text : String) : Path := ofBytes (Bytes.encode text)

/-- The text that a path is shown as. -/
def text (p : Path) : String := p.bytes.shown

theorem ext {p q : Path} (h : p.bytes = q.bytes) : p = q := by
  obtain ⟨_, _, rfl⟩ := p
  obtain ⟨_, _, rfl⟩ := q
  obtain rfl : _ = _ := h
  rfl

instance : DecidableEq Path := fun p q =>
  if h : p.bytes = q.bytes then isTrue (ext h) else isFalse fun e => h (congrArg Path.bytes e)

instance : ToString Path := ⟨Path.text⟩

@[simp] theorem location_ofBytes (bytes : Bytes) :
    (ofBytes bytes).location = Location.ofBytes bytes := rfl

@[simp] theorem bytes_ofBytes (bytes : Bytes) : (ofBytes bytes).bytes = bytes := rfl

/-- Only the empty path names the empty location. -/
theorem location_eq_nil_iff {p : Path} : p.location = [] ↔ p.bytes = [] := by
  refine ⟨fun h => Decidable.byContradiction fun hne => ?_, fun h => ?_⟩
  · exact Location.ofBytes_ne_nil hne (p.location_eq ▸ h)
  · rw [p.location_eq, h]
    rfl

/-- Only the empty path is shown as no text. -/
theorem text_eq_empty_iff {p : Path} : p.text = "" ↔ p.location = [] :=
  Bytes.shown_eq_empty_iff.trans location_eq_nil_iff.symm

theorem location_ne_nil {p : Path} (h : p.text ≠ "") : p.location ≠ [] := mt text_eq_empty_iff.2 h

/-- A path that starts at the root. -/
def isAbsolute (p : Path) : Bool := p.location.head? == some .root

/-- A path starts at the root exactly when its spelling starts with a slash. -/
theorem isAbsolute_iff {p : Path} : p.isAbsolute ↔ p.bytes.head? = some Bytes.slash := by
  rw [isAbsolute, beq_iff_eq, p.location_eq, Location.head?_ofBytes_eq_root_iff]

/-! ## Joining -/

/-- What stands between a path and what follows it: a slash, unless the path brings one or is
empty. -/
def separator (p : Path) : Bytes :=
  if p.bytes.getLast?.all (· == Bytes.slash) then [] else [Bytes.slash]

/-- The steps that a relative path adds. A step that stays counts only where nothing is before it. -/
def added (p q : Path) : Location :=
  if p.bytes = [] then q.location else q.location.filter (· != .current)

/-- A joined spelling names the location and the steps added to it. -/
theorem location_append_added {p q : Path} (hq : q.isAbsolute = false) :
    p.location ++ p.added q = Location.ofBytes (p.bytes ++ p.separator ++ q.bytes) := by
  have hq : q.bytes.head? ≠ some Bytes.slash := fun h => by simp [isAbsolute_iff.2 h] at hq
  rw [added]
  split
  · rename_i h
    rw [location_eq_nil_iff.2 h, separator, h]
    exact q.location_eq
  · rename_i hp
    rw [p.location_eq, q.location_eq, ← Location.steps_eq_filter hq, separator]
    split
    · rename_i hb
      have hl : p.bytes.getLast? = some Bytes.slash := by
        cases hl : p.bytes.getLast? with
        | none => exact absurd (List.getLast?_eq_none_iff.1 hl) hp
        | some c => simpa [hl] using hb
      simpa using (Location.ofBytes_append_of_endsWith hl).symm
    · simpa using (Location.ofBytes_append_slash hp _).symm

/-- The path `q` as seen from the directory `p`: an absolute `q` is itself, and otherwise the two
spellings stand with one slash between them, unless `p` is empty or brings the slash. -/
def join (p q : Path) : Path :=
  if h : q.isAbsolute then q
  else ⟨p.bytes ++ p.separator ++ q.bytes, p.location ++ p.added q,
    location_append_added (by simpa using h)⟩

instance : HDiv Path String Path := ⟨fun p name => p.join (ofText name)⟩

theorem join_of_isAbsolute {p q : Path} (h : q.isAbsolute) : p.join q = q := dif_pos h

/-- A relative path adds its steps. -/
theorem location_join {p q : Path} (h : q.isAbsolute = false) :
    (p.join q).location = p.location ++ p.added q := by
  rw [join, dif_neg (by simp [h])]

theorem bytes_join {p q : Path} (h : q.isAbsolute = false) :
    (p.join q).bytes = p.bytes ++ p.separator ++ q.bytes := by
  rw [join, dif_neg (by simp [h])]

/-- The path with a slash behind it. -/
def slash (p : Path) : Path where
  bytes := p.bytes ++ [Bytes.slash]
  location := if p.bytes = [] then [.root] else p.location
  location_eq := by
    split
    · rename_i h
      rw [h]
      rfl
    · rename_i h
      simpa [p.location_eq] using (Location.ofBytes_append_slash h []).symm

theorem location_slash {p : Path} (h : p.bytes ≠ []) : p.slash.location = p.location := if_neg h

/-! ## Names -/

/-- The plain name at the end of a path. -/
def name? (p : Path) : Option Bytes := p.location.name?

/-- Whether `p` is `dir` or lies below it. -/
def within (p dir : Path) : Bool := p.location.within dir.location

/-- A text that can stand as one component. -/
def IsName (name : String) : Prop := Location.IsName (Bytes.encode name)

instance (name : String) : Decidable (IsName name) := by unfold IsName; infer_instance

/-- A text names an entry if it is nonempty, without slashes, and no dot step. -/
theorem isName_iff {name : String} : IsName name ↔
    name ≠ "" ∧ name ≠ "." ∧ name ≠ ".." ∧ '/' ∉ name.toList := by
  have hne (text : String) : Bytes.encode name ≠ Bytes.encode text ↔ name ≠ text :=
    not_congr ⟨Bytes.encode_injective, congrArg _⟩
  rw [← hne "", ← hne ".", ← hne "..", ← Bytes.mem_encode_iff (c := '/') (by decide)]
  exact Iff.rfl

/-- What a name shows can stand as one component. -/
theorem isName_shown {name : Bytes} (h : Location.IsName name) : IsName name.shown := by
  have hback {text : String} (htext : Bytes.replacement ∉ text.toList) (he : name.shown = text) :
      name = Bytes.encode text := by
    rw [← he, Bytes.encode_shown (by rwa [he])]
  refine isName_iff.2 ⟨fun he => h.1 (hback (by decide) he), fun he => h.2.1 (hback (by decide) he),
    fun he => h.2.2.1 (hback (by decide) he), fun hmem => ?_⟩
  rw [Bytes.shown, String.toList_ofList] at hmem
  rcases Bytes.mem_decode hmem with hr | hs
  · exact absurd hr (by decide)
  · exact h.2.2.2 (hs (by decide))

theorem location_of_isName {name : String} (h : IsName name) :
    (ofText name).location = [.named name] := by
  rw [ofText, location_ofBytes, Location.ofBytes, Text.split_of_not_mem h.2.2.2,
    Location.ofPieces_cons h.1 h.2.1]
  simp [Location.ofPiece?_of_isName h, Component.named]

/-- The plain steps of a path's location are names. -/
theorem isName_of_mem_location {p : Path} {name : Bytes} (h : .plain name ∈ p.location) :
    Location.IsName name :=
  Location.isName_of_mem_ofBytes (p.location_eq ▸ h)

/-- Behind its front the location of a path has parent steps and plain names only. -/
theorem mem_tail_location {p : Path} {c : Component} (h : c ∈ p.location.tail) :
    c = .parent ∨ ∃ name, c = .plain name :=
  Location.mem_tail_ofBytes (p.location_eq ▸ h)

/-- The root stands only in front of the location of a path. -/
theorem root_notMem_tail_location (p : Path) : .root ∉ p.location.tail :=
  fun h => by simpa using mem_tail_location h

/-- A text that is one plain step, whichever way it is spelled. -/
def IsStep (name : String) : Prop := ∃ step, (ofText name).location = [.plain step]

/-- The step is text, too. -/
theorem IsStep.exists_named {name : String} (h : IsStep name) :
    ∃ text, (ofText name).location = [.named text] := by
  obtain ⟨step, hstep⟩ := h
  have hmem : .plain step ∈ Location.ofBytes (Bytes.encode name) := by
    rw [← location_ofBytes, ← ofText, hstep]
    exact List.mem_singleton_self _
  obtain ⟨text, htext⟩ := Location.exists_text_of_mem_ofBytes hmem
  exact ⟨text, by rw [hstep, htext]⟩

theorem isStep_of_isName {name : String} (h : IsName name) : IsStep name :=
  ⟨_, location_of_isName h⟩

theorem location_of_step (p : Path) {name text : String}
    (h : (ofText name).location = [.named text]) :
    (p / name).location = p.location ++ [.named text] := by
  have ha : (ofText name).isAbsolute = false := by
    rw [isAbsolute, h]
    rfl
  show (p.join (ofText name)).location = _
  rw [location_join ha, added, h]
  simp [Component.named]

/-- The empty name leads nowhere else. -/
theorem location_empty_name (p : Path) : (p / "").location = p.location := by
  have ha : (ofText "").isAbsolute = false := rfl
  show (p.join (ofText "")).location = _
  rw [location_join ha, added, show (ofText "").location = [] from rfl]
  simp

/-- An entry of a directory lies one plain step below it. -/
theorem location_child (p : Path) {name : String} (h : IsName name) :
    (p / name).location = p.location ++ [.named name] :=
  location_of_step p (location_of_isName h)

end Path

end DisplayTopology
