import DisplayTopology.Path.Basic

/-!
# Directories above a path

A path leads through the directories above it, each of which is named by a beginning of its
spelling. One pass over the spelling finds the shortest such beginnings (`Path.beginnings`), and
the directories above a path are all but the last of them. Their locations are the beginnings of
the path's location, but for the empty one in front of the root: `Path.location_parent?` and
`Path.exists_mem_ancestors_iff`.
-/

namespace DisplayTopology.Path

/-- The paths that pieces of a spelling lead through from `front`, each spelled shortest. -/
def through (front : Path) : List Bytes → List Path
  | [] => []
  | piece :: pieces =>
    let step := ofBytes piece
    let here := front.join step
    if (front.added step).isEmpty then here.slash.through pieces
    else here :: here.slash.through pieces

/-- The shortest beginnings of a path's spelling that name the places the path leads through, from
outside inwards: the root or the empty path first, and last the path's own place. -/
def beginnings (p : Path) : List Path :=
  let pieces := Text.split Bytes.slash p.bytes
  if p.isAbsolute then ofBytes [Bytes.slash] :: (ofBytes [Bytes.slash]).through pieces.tail
  else ofBytes [] :: (ofBytes []).through pieces

/-- The directories above a path, innermost first. -/
def parents (p : Path) : List Path := p.beginnings.dropLast.reverse

/-- The path of the directory that holds this one. The root and the empty path have none. -/
def parent? (p : Path) : Option Path := p.parents.head?

/-- A path and the directories above it, innermost first. -/
def ancestors (p : Path) : List Path := p :: p.parents

/-! ## Locations -/

theorem isAbsolute_ofBytes_piece {piece : Bytes} (h : Bytes.slash ∉ piece) :
    (ofBytes piece).isAbsolute = false := by
  refine Bool.eq_false_iff.2 fun ha => h ?_
  exact List.mem_of_mem_head? (isAbsolute_iff.1 ha)

theorem bytes_join_ne_nil {front : Path} {piece : Bytes} (hp : Bytes.slash ∉ piece)
    (h : front.bytes ≠ [] ∨ piece ≠ []) : (front.join (ofBytes piece)).bytes ≠ [] := by
  rw [bytes_join (isAbsolute_ofBytes_piece hp), bytes_ofBytes]
  intro he
  obtain ⟨hfront, hpiece⟩ := List.append_eq_nil_iff.1 he
  rcases h with h | h
  · exact h (List.append_eq_nil_iff.1 hfront).1
  · exact h hpiece

theorem bytes_slash_ne_nil (p : Path) : p.slash.bytes ≠ [] := by simp [slash]

/-- From a directory, each piece that names anything leads one step on. -/
theorem map_location_through {front : Path} (hf : front.bytes ≠ []) {pieces : List Bytes}
    (hp : ∀ piece ∈ pieces, Bytes.slash ∉ piece) :
    (front.through pieces).map location =
      Location.along front.location (pieces.filterMap Component.ofPiece?) := by
  induction pieces generalizing front with
  | nil => rfl
  | cons piece pieces ih =>
    obtain ⟨hpiece, hpieces⟩ := List.forall_mem_cons.1 hp
    have hq := isAbsolute_ofBytes_piece hpiece
    have hs : front.added (ofBytes piece) = [piece].filterMap Component.ofPiece? := by
      have ha : piece.head? ≠ some Bytes.slash := fun h => hpiece (List.mem_of_mem_head? h)
      rw [added, if_neg hf, location_ofBytes, ← Location.steps_eq_filter ha, Location.steps,
        Text.split_of_not_mem hpiece]
    have hj := bytes_join_ne_nil hpiece (.inl hf)
    rw [through, ← List.singleton_append (l := pieces), List.filterMap_append, ← hs]
    have hi := ih (bytes_slash_ne_nil (front.join (ofBytes piece))) hpieces
    rw [location_slash hj, location_join hq] at hi
    cases hc : Component.ofPiece? piece with
    | none =>
      have hs : front.added (ofBytes piece) = [] := by simp [hs, hc]
      simpa [hs] using hi
    | some c =>
      have hs : front.added (ofBytes piece) = [c] := by simp [hs, hc]
      rw [hs] at hi
      simp [hs, hi, location_join hq, Location.along]

theorem ofPieces_singleton (piece : Bytes) :
    Location.ofPieces [piece] = [] ∨ ∃ c, Location.ofPieces [piece] = [c] := by
  unfold Location.ofPieces
  split
  · simp_all
  · simp_all
  · cases h : Component.ofPiece? piece <;> simp [h]

/-- From nowhere, the first piece may also stay, and others lead on. -/
theorem map_location_through_empty {piece : Bytes} {pieces : List Bytes}
    (h : piece ≠ [] ∨ pieces = []) (hp : ∀ q ∈ piece :: pieces, Bytes.slash ∉ q) :
    ((ofBytes []).through (piece :: pieces)).map location =
      Location.along [] (Location.ofPieces (piece :: pieces)) := by
  obtain ⟨hpiece, hpieces⟩ := List.forall_mem_cons.1 hp
  have hs : (ofBytes []).added (ofBytes piece) = Location.ofPieces [piece] := by
    rw [added, bytes_ofBytes, if_pos rfl, location_ofBytes, Location.ofBytes,
      Text.split_of_not_mem hpiece]
  have hq := isAbsolute_ofBytes_piece hpiece
  have hl : ((ofBytes []).join (ofBytes piece)).location = Location.ofPieces [piece] := by
    rw [location_join hq, hs]
    rfl
  have hr : (((ofBytes []).join (ofBytes piece)).slash.through pieces).map location =
      Location.along (Location.ofPieces [piece]) (pieces.filterMap Component.ofPiece?) := by
    rcases h with h | rfl
    · have hj : ((ofBytes []).join (ofBytes piece)).bytes ≠ [] := bytes_join_ne_nil hpiece (.inr h)
      rw [map_location_through (bytes_slash_ne_nil _) hpieces, location_slash hj, hl]
    · rfl
  have ho : Location.ofPieces (piece :: pieces) =
      Location.ofPieces [piece] ++ pieces.filterMap Component.ofPiece? := by
    rcases h with h | rfl
    · have hs : [piece] ≠ [[]] := by simpa using h
      exact Location.ofPieces_append (by simp) hs pieces
    · simp
  rw [through, ho]
  rcases ofPieces_singleton piece with hn | ⟨c, hc⟩
  · rw [hn] at hs hr ⊢
    simpa [hs] using hr
  · rw [hc] at hs hr hl ⊢
    simp [hs, hr, hl, Location.along]

/-- A path leads through the beginnings of its location, from the root or from the empty location. -/
theorem map_location_beginnings (p : Path) :
    p.beginnings.map location =
      if p.isAbsolute then [.root] :: Location.along [.root] p.location.tail
      else [] :: Location.along [] p.location := by
  rw [beginnings]
  split
  · rename_i h
    obtain ⟨more, hm⟩ : ∃ more, p.bytes = Bytes.slash :: more := by
      cases ht : p.bytes with
      | nil => simp [isAbsolute_iff, ht] at h
      | cons c cs => exact ⟨cs, by simpa [isAbsolute_iff, ht] using h⟩
    have hp : ∀ piece ∈ Text.split Bytes.slash more, Bytes.slash ∉ piece :=
      fun _ => Text.not_mem_of_mem_split
    rw [List.map_cons, p.location_eq, hm, Text.split_cons_self, List.tail_cons,
      map_location_through (by simp) hp, Location.ofBytes_slash]
    rfl
  · rename_i h
    have ha : p.bytes.head? ≠ some Bytes.slash := fun e => h (isAbsolute_iff.2 e)
    rw [List.map_cons, p.location_eq, Location.ofBytes]
    congr 1
    obtain ⟨piece, pieces, hs⟩ :=
      List.exists_cons_of_ne_nil (Text.split_ne_nil Bytes.slash p.bytes)
    have hp : ∀ q ∈ Text.split Bytes.slash p.bytes, Bytes.slash ∉ q :=
      fun _ => Text.not_mem_of_mem_split
    rw [hs] at hp ⊢
    refine map_location_through_empty (Decidable.or_iff_not_imp_left.2 fun he => ?_) hp
    cases ht : p.bytes with
    | nil => simp_all
    | cons c cs =>
      have hc : c ≠ Bytes.slash := by simpa [ht] using ha
      rw [ht, Text.split, if_neg hc] at hs
      split at hs <;> simp_all

theorem eq_root_cons_tail {p : Path} (h : p.isAbsolute) : p.location = .root :: p.location.tail := by
  cases hl : p.location with
  | nil => simp [isAbsolute, hl] at h
  | cons c l => simpa [isAbsolute, hl] using h

theorem root_notMem_of_not_isAbsolute {p : Path} (h : ¬p.isAbsolute) : .root ∉ p.location := by
  have ht := p.root_notMem_tail_location
  cases hl : p.location with
  | nil => simp
  | cons c l => simp_all [isAbsolute, eq_comm (a := c)]

/-- The locations above a path are those that its location's steps lead through before the last. -/
theorem map_location_parents (p : Path) :
    p.parents.map location =
      ((if p.isAbsolute then [.root] :: Location.along [.root] p.location.tail
        else [] :: Location.along [] p.location).dropLast).reverse := by
  rw [parents, List.map_reverse, List.map_dropLast, map_location_beginnings]

/-- The directory above a path has the location above the path's. -/
theorem location_parent? (p : Path) : p.parent?.map location = p.location.parent? := by
  have key (l steps : Location) (hr : .root ∉ steps) (hl : l.parent? = none) :
      (l :: Location.along l steps).dropLast.reverse.head? = (l ++ steps).parent? := by
    rcases List.eq_nil_or_concat steps with rfl | ⟨front, c, rfl⟩
    · simp [hl]
    · have hc : c ≠ .root := fun h => hr (by simp [h])
      rw [List.concat_eq_append, Location.dropLast_cons_along, List.head?_reverse,
        Location.getLast?_cons_along, ← List.append_assoc, Location.parent?_append_singleton,
        if_neg hc]
  rw [parent?, ← List.head?_map, map_location_parents]
  split
  · rename_i h
    rw [key _ _ p.root_notMem_tail_location rfl]
    exact congrArg Location.parent? (eq_root_cons_tail h).symm
  · rename_i h
    exact key _ _ (root_notMem_of_not_isAbsolute h) rfl

/-- A path and the directories above it have the beginnings of its location, but for the empty one
if the path starts at the root. -/
theorem exists_mem_ancestors_iff {p : Path} {l : Location} :
    (∃ q ∈ p.ancestors, q.location = l) ↔ l <+: p.location ∧ (p.isAbsolute → l ≠ []) := by
  have key (m steps : Location) :
      l = m ++ steps ∨ l ∈ (m :: Location.along m steps).dropLast.reverse ↔
        m <+: l ∧ l <+: m ++ steps := by
    have hm := @Location.mem_cons_along_iff m l steps
    obtain ⟨front, hf⟩ := List.getLast?_eq_some_iff.1 (Location.getLast?_cons_along m steps)
    rw [hf, List.mem_append, List.mem_singleton] at hm
    rw [← hm, hf, List.dropLast_concat, List.mem_reverse, Or.comm]
  have hq : (∃ q ∈ p.ancestors, q.location = l) ↔
      l = p.location ∨ l ∈ p.parents.map location := by
    simp [ancestors, eq_comm (a := l)]
  rw [hq, map_location_parents]
  split
  · rename_i h
    have hk := key [.root] p.location.tail
    rw [List.singleton_append, ← eq_root_cons_tail h] at hk
    rw [hk, And.comm]
    refine and_congr_right fun hl => ?_
    cases l with
    | nil => simp [h]
    | cons c l =>
      rw [eq_root_cons_tail h] at hl
      simp [List.cons_prefix_cons, (List.cons_prefix_cons.1 hl).1]
  · rename_i h
    simpa [h] using key [] p.location

end DisplayTopology.Path
