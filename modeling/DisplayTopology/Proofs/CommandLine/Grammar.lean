import DisplayTopology.CommandLine.Token

/-!
# The grammar of display tokens

A token is a connector type, or a type and a number of planes, or both and a monitor, with commas
between them (`Describes`). Anything else is turned down for the first of its mistakes, in the order
in which fields are read: their number, the type, how the planes are spelled, the monitor, and last
how many planes there are (`Mistake`). The two say of every token what it is read as
(`ofToken_grammar`); the index of the connector is only reported.

Reading goes field by field, and every field has a pair of lemmas for what it is read as and for
what is wrong with it. A valid specification of a display that starts plugged in is read from the
token that spells it (`describes_toToken`).
-/

namespace DisplayTopology.ConnectorSpec

variable {token type field name : String} {fields rest : List String} {index n : Nat}
  {spec : ConnectorSpec} {e : TokenError}

/-! ## Fields -/

/-- The fields of a token are the texts between its commas. -/
structure Cut (token : String) (fields : List String) : Prop where
  ne_nil : fields ≠ []
  not_mem : ∀ field ∈ fields, ',' ∉ field.toList
  join : String.intercalate "," fields = token

theorem cut_iff : Cut token fields ↔ (Text.split ',' token.toList).map String.ofList = fields := by
  constructor
  · rintro ⟨hne, hcomma, rfl⟩
    have hcomma : ∀ piece ∈ fields.map String.toList, ',' ∉ piece := by simpa using hcomma
    have hsplit := List.splitOn_intercalate ',' hcomma (by simpa using hne)
    rw [Text.split_eq_splitOn, String.toList_intercalate, show ",".toList = [','] from rfl, hsplit]
    simp
  · rintro rfl
    refine ⟨by simp, fun field hfield => ?_, ?_⟩
    · obtain ⟨piece, hpiece, rfl⟩ := List.mem_map.1 hfield
      rw [String.toList_ofList]
      exact Text.not_mem_of_mem_split hpiece
    · rw [← String.toList_inj, String.toList_intercalate, Text.split_eq_splitOn,
        show ",".toList = [','] from rfl, List.map_map]
      simp [Function.comp_def]

/-- A field that gives a number of overlay planes; an empty one gives none. -/
inductive Planes : String → Nat → Prop where
  | empty : Planes "" 0
  | numeral {field : String} {n : Nat} (h : Text.Spells field.toList n)
    (hlt : n < Text.wordLimit64) : Planes field n

theorem typeOfField_eq_ok_iff {t : ConnectorType} : typeOfField field = .ok t ↔ field = t.name := by
  rw [← ConnectorType.ofName?_eq_some_iff, typeOfField]
  cases ConnectorType.ofName? field <;> simp

theorem typeOfField_eq_error_iff : typeOfField field = .error e ↔
    (∀ t : ConnectorType, field ≠ t.name) ∧ e = .rejected (.unknownConnectorType field) := by
  rw [← ConnectorType.ofName?_eq_none_iff, typeOfField]
  cases ConnectorType.ofName? field <;> simp [eq_comm (a := e)]

theorem planes_iff : Planes field n ↔
    if field = "" then n = 0 else Text.numeral? Text.wordLimit64 field.toList = some n := by
  constructor
  · intro h
    cases h with
    | empty => rw [if_pos rfl]
    | numeral hspells hlt =>
      have hread := Text.numeral?_eq_some_iff.2 ⟨hspells, hlt⟩
      rw [if_neg, hread]
      rintro rfl
      simp [Text.numeral?_nil] at hread
  · split
    · rename_i hempty
      rintro rfl
      exact hempty ▸ .empty
    · intro hread
      obtain ⟨hspells, hlt⟩ := Text.numeral?_eq_some_iff.1 hread
      exact .numeral hspells hlt

theorem overlaysOfField_eq_ok_iff : overlaysOfField (some field) = .ok n ↔ Planes field n := by
  rw [planes_iff, overlaysOfField]
  split
  · simp [eq_comm (a := n)]
  · cases Text.numeral? Text.wordLimit64 field.toList <;> simp

theorem overlaysOfField_eq_error_iff : overlaysOfField (some field) = .error e ↔
    (∀ n, ¬Planes field n) ∧ e = .invalidPlanes field := by
  simp only [planes_iff, overlaysOfField]
  split
  · simp
  · cases Text.numeral? Text.wordLimit64 field.toList <;> simp [eq_comm (a := e)]

theorem monitorOfField_eq_ok_iff {monitor : Option Monitor} :
    monitorOfField (some name) = .ok monitor ↔ ∃ m : Monitor, name = m.name ∧ monitor = some m := by
  simp only [← Monitor.ofName?_eq_some_iff, monitorOfField]
  cases Monitor.ofName? name <;> simp [eq_comm (a := monitor)]

theorem monitorOfField_eq_error_iff : monitorOfField (some name) = .error e ↔
    (∀ m : Monitor, name ≠ m.name) ∧ e = .rejected (.unknownMonitor name) := by
  rw [← Monitor.ofName?_eq_none_iff, monitorOfField]
  cases Monitor.ofName? name <;> simp [eq_comm (a := e)]

/-! ## Fields together -/

variable {planes monitor : Option String}

/-- The type is read first, then the planes and the monitor; how many planes there are is looked at
last. -/
theorem ofFields_eq : ofFields index type planes monitor =
    match typeOfField type, overlaysOfField planes, monitorOfField monitor with
    | .error e, _, _ | .ok _, .error e, _ | .ok _, .ok _, .error e => .error e
    | .ok type, .ok overlays, .ok monitor =>
      if maxOverlays < overlays then .error (.rejected (.tooManyPlanes index overlays))
      else .ok { type, overlays, monitor } := by
  rw [ofFields]
  cases typeOfField type <;> cases overlaysOfField planes <;> cases monitorOfField monitor <;>
    try rfl
  rename_i overlays _
  by_cases hmax : maxOverlays < overlays <;> simp [bind, Except.bind, validate, hmax] <;> rfl

theorem ofFields_eq_ok_iff : ofFields index type planes monitor = .ok spec ↔
    (typeOfField type = .ok spec.type ∧ overlaysOfField planes = .ok spec.overlays ∧
      monitorOfField monitor = .ok spec.monitor) ∧
    spec.enabled = true ∧ spec.overlays ≤ maxOverlays := by
  obtain ⟨t, enabled, n, m⟩ := spec
  rw [ofFields_eq]
  split
  case h_4 t' n' m' ht hn hm =>
    rw [ht, hn, hm]
    by_cases hmax : maxOverlays < n' <;> grind
  all_goals simp [*]

/-- Of several mistakes the first counts. -/
theorem ofFields_eq_error_iff : ofFields index type planes monitor = .error e ↔
    typeOfField type = .error e ∨ ∃ t, typeOfField type = .ok t ∧
      (overlaysOfField planes = .error e ∨ ∃ n, overlaysOfField planes = .ok n ∧
        (monitorOfField monitor = .error e ∨ ∃ m, monitorOfField monitor = .ok m ∧
          maxOverlays < n ∧ e = .rejected (.tooManyPlanes index n))) := by
  rw [ofFields_eq]
  split
  case h_4 t n m ht hn hm =>
    rw [ht, hn, hm]
    by_cases hmax : maxOverlays < n <;> simp [hmax, eq_comm (a := e)]
  all_goals simp [*]

/-- A token with one to three fields is read from them. -/
theorem ofToken_of_cut (h : Cut token (type :: rest)) (hrest : rest.length ≤ 2) :
    ofToken index token = ofFields index type rest[0]? rest[1]? := by
  rw [ofToken, cut_iff.1 h]
  match rest with
  | [] | [_] | [_, _] => rfl
  | _ :: _ :: _ :: _ => simp at hrest

theorem ofToken_of_many (h : Cut token fields) (hmany : 3 < fields.length) :
    ofToken index token = .error (.tooManyFields token) := by
  rw [ofToken, cut_iff.1 h]
  match fields with
  | [] | [_] | [_, _] | [_, _, _] => simp at hmany
  | _ :: _ :: _ :: _ :: _ => rfl

/-! ## Tokens -/

/-- What a token stands for: a type, overlays and a monitor, of a display that starts plugged in. -/
inductive Describes (token : String) : ConnectorSpec → Prop where
  | type {t : ConnectorType} (hfields : Cut token [t.name]) :
    Describes token { type := t, enabled := true, overlays := 0, monitor := none }
  | planes {t : ConnectorType} {field : String} {n : Nat} (hfields : Cut token [t.name, field])
    (hplanes : Planes field n) (hmax : n ≤ maxOverlays) :
    Describes token { type := t, enabled := true, overlays := n, monitor := none }
  | monitor {t : ConnectorType} {field : String} {n : Nat} {m : Monitor}
    (hfields : Cut token [t.name, field, m.name]) (hplanes : Planes field n)
    (hmax : n ≤ maxOverlays) :
    Describes token { type := t, enabled := true, overlays := n, monitor := some m }

/-- What is wrong with the token for the connector at an index. What comes before the mistake in
the order of reading is right. -/
inductive Mistake (index : Nat) (token : String) : TokenError → Prop where
  | fields {fields : List String} (hfields : Cut token fields) (hmany : 3 < fields.length) :
    Mistake index token (.tooManyFields token)
  | type {field : String} {rest : List String} (hfields : Cut token (field :: rest))
    (hrest : rest.length ≤ 2) (hname : ∀ t : ConnectorType, field ≠ t.name) :
    Mistake index token (.rejected (.unknownConnectorType field))
  | planes {t : ConnectorType} {field : String} {rest : List String}
    (hfields : Cut token (t.name :: field :: rest)) (hrest : rest.length ≤ 1)
    (hplanes : ∀ n, ¬Planes field n) : Mistake index token (.invalidPlanes field)
  | monitor {t : ConnectorType} {field name : String} {n : Nat}
    (hfields : Cut token [t.name, field, name]) (hplanes : Planes field n)
    (hname : ∀ m : Monitor, name ≠ m.name) :
    Mistake index token (.rejected (.unknownMonitor name))
  | overlays {t : ConnectorType} {field : String} {rest : List String} {n : Nat}
    (hfields : Cut token (t.name :: field :: rest)) (hplanes : Planes field n)
    (hrest : rest = [] ∨ ∃ m : Monitor, rest = [m.name]) (hmax : maxOverlays < n) :
    Mistake index token (.rejected (.tooManyPlanes index n))

theorem exists_cut (token : String) : ∃ type rest, Cut token (type :: rest) := by
  have h := cut_iff.2 (Eq.refl ((Text.split ',' token.toList).map String.ofList))
  obtain ⟨type, rest, hfields⟩ := List.exists_cons_of_ne_nil h.ne_nil
  exact ⟨type, rest, hfields ▸ h⟩

theorem ofToken_eq_ok_iff : ofToken index token = .ok spec ↔ Describes token spec := by
  constructor
  · intro h
    obtain ⟨type, rest, hcut⟩ := exists_cut token
    by_cases hrest : rest.length ≤ 2
    · rw [ofToken_of_cut hcut hrest, ofFields_eq_ok_iff] at h
      obtain ⟨⟨htype, hplanes, hmonitor⟩, henabled, hmax⟩ := h
      obtain ⟨t, enabled, n, m⟩ := spec
      obtain rfl := typeOfField_eq_ok_iff.1 htype
      obtain rfl : enabled = true := henabled
      match rest with
      | [] =>
        obtain rfl := Except.ok.inj hplanes
        obtain rfl := Except.ok.inj hmonitor
        exact .type hcut
      | [field] =>
        obtain rfl := Except.ok.inj hmonitor
        exact .planes hcut (overlaysOfField_eq_ok_iff.1 hplanes) hmax
      | [field, name] =>
        obtain ⟨m, rfl, rfl⟩ := monitorOfField_eq_ok_iff.1 hmonitor
        exact .monitor hcut (overlaysOfField_eq_ok_iff.1 hplanes) hmax
    · rw [ofToken_of_many hcut (by simp; omega)] at h
      contradiction
  · intro h
    cases h with
    | type hcut =>
      rw [ofToken_of_cut hcut (by simp), ofFields_eq_ok_iff]
      exact ⟨⟨typeOfField_eq_ok_iff.2 rfl, rfl, rfl⟩, rfl, Nat.zero_le _⟩
    | planes hcut hplanes hmax =>
      rw [ofToken_of_cut hcut (by simp), ofFields_eq_ok_iff]
      exact ⟨⟨typeOfField_eq_ok_iff.2 rfl, overlaysOfField_eq_ok_iff.2 hplanes, rfl⟩, rfl, hmax⟩
    | monitor hcut hplanes hmax =>
      rw [ofToken_of_cut hcut (by simp), ofFields_eq_ok_iff]
      exact ⟨⟨typeOfField_eq_ok_iff.2 rfl, overlaysOfField_eq_ok_iff.2 hplanes,
        monitorOfField_eq_ok_iff.2 ⟨_, rfl, rfl⟩⟩, rfl, hmax⟩

theorem ofToken_eq_error_iff : ofToken index token = .error e ↔ Mistake index token e := by
  constructor
  · intro h
    obtain ⟨type, rest, hcut⟩ := exists_cut token
    by_cases hrest : rest.length ≤ 2
    · rw [ofToken_of_cut hcut hrest, ofFields_eq_error_iff] at h
      obtain htype | ⟨t, htype, h⟩ := h
      · obtain ⟨hname, rfl⟩ := typeOfField_eq_error_iff.1 htype
        exact .type hcut hrest hname
      obtain rfl := typeOfField_eq_ok_iff.1 htype
      match rest with
      | [] =>
        obtain hplanes | ⟨n, hplanes, hmonitor | ⟨m, -, hmax, -⟩⟩ := h
        · contradiction
        · contradiction
        · obtain rfl := Except.ok.inj hplanes
          exact absurd hmax (Nat.not_lt_zero _)
      | [field] =>
        obtain hplanes | ⟨n, hplanes, hmonitor | ⟨m, -, hmax, rfl⟩⟩ := h
        · obtain ⟨hnone, rfl⟩ := overlaysOfField_eq_error_iff.1 hplanes
          exact .planes hcut (by simp) hnone
        · contradiction
        · exact .overlays hcut (overlaysOfField_eq_ok_iff.1 hplanes) (.inl rfl) hmax
      | [field, name] =>
        obtain hplanes | ⟨n, hplanes, hmonitor | ⟨m, hmonitor, hmax, rfl⟩⟩ := h
        · obtain ⟨hnone, rfl⟩ := overlaysOfField_eq_error_iff.1 hplanes
          exact .planes hcut (by simp) hnone
        · obtain ⟨hname, rfl⟩ := monitorOfField_eq_error_iff.1 hmonitor
          exact .monitor hcut (overlaysOfField_eq_ok_iff.1 hplanes) hname
        · obtain ⟨m, rfl, -⟩ := monitorOfField_eq_ok_iff.1 hmonitor
          exact .overlays hcut (overlaysOfField_eq_ok_iff.1 hplanes) (.inr ⟨m, rfl⟩) hmax
    · have hmany : 3 < (type :: rest).length := by simp; omega
      rw [ofToken_of_many hcut hmany] at h
      obtain rfl := Except.error.inj h
      exact .fields hcut hmany
  · intro h
    cases h with
    | fields hcut hmany => exact ofToken_of_many hcut hmany
    | type hcut hrest hname =>
      rw [ofToken_of_cut hcut hrest, ofFields_eq_error_iff]
      exact .inl (typeOfField_eq_error_iff.2 ⟨hname, rfl⟩)
    | planes hcut hrest hplanes =>
      rw [ofToken_of_cut hcut (by simpa using hrest), ofFields_eq_error_iff]
      exact .inr ⟨_, typeOfField_eq_ok_iff.2 rfl, .inl (overlaysOfField_eq_error_iff.2 ⟨hplanes, rfl⟩)⟩
    | monitor hcut hplanes hname =>
      rw [ofToken_of_cut hcut (by simp), ofFields_eq_error_iff]
      exact .inr ⟨_, typeOfField_eq_ok_iff.2 rfl, .inr ⟨_, overlaysOfField_eq_ok_iff.2 hplanes,
        .inl (monitorOfField_eq_error_iff.2 ⟨hname, rfl⟩)⟩⟩
    | overlays hcut hplanes hrest hmax =>
      have hover := overlaysOfField_eq_ok_iff.2 hplanes
      rcases hrest with rfl | ⟨m, rfl⟩
      · rw [ofToken_of_cut hcut (by simp), ofFields_eq_error_iff]
        exact .inr ⟨_, typeOfField_eq_ok_iff.2 rfl, .inr ⟨_, hover, .inr ⟨_, rfl, hmax, rfl⟩⟩⟩
      · rw [ofToken_of_cut hcut (by simp), ofFields_eq_error_iff]
        exact .inr ⟨_, typeOfField_eq_ok_iff.2 rfl, .inr ⟨_, hover,
          .inr ⟨_, monitorOfField_eq_ok_iff.2 ⟨m, rfl, rfl⟩, hmax, rfl⟩⟩⟩

/-! ## Spelling a specification -/

/-- The fields of the token that spells a specification. -/
def spelling (spec : ConnectorSpec) : List String :=
  [spec.type.name, String.ofList (Nat.toDigits 10 spec.overlays)] ++
    (spec.monitor.map Monitor.name).toList

/-- The token that spells a specification. -/
def toToken (spec : ConnectorSpec) : String := String.intercalate "," spec.spelling

theorem cut_toToken (spec : ConnectorSpec) : Cut spec.toToken spec.spelling := by
  refine ⟨by simp [spelling], fun field hfield => ?_, rfl⟩
  have htype (t : ConnectorType) : ',' ∉ t.name.toList := by cases t <;> decide
  have hmonitor (m : Monitor) : ',' ∉ m.name.toList := by cases m <;> decide
  have hdigits (n : Nat) : ',' ∉ Nat.toDigits 10 n := fun h =>
    absurd (Nat.isDigit_of_mem_toDigits (by decide) (by decide) h) (by decide)
  rcases List.mem_append.1 hfield with hfield | hfield
  · simp only [List.mem_cons, List.not_mem_nil, or_false] at hfield
    rcases hfield with rfl | rfl
    · exact htype _
    · rw [String.toList_ofList]
      exact hdigits _
  · obtain ⟨m, -, rfl⟩ := Option.map_eq_some_iff.1 (Option.mem_toList.1 hfield)
    exact hmonitor m

/-- A specification with few enough overlays of a display that starts plugged in is read from the
token that spells it. -/
theorem describes_toToken (henabled : spec.enabled = true) (hmax : spec.overlays ≤ maxOverlays) :
    Describes spec.toToken spec := by
  have hword : spec.overlays < Text.wordLimit64 := by
    have : Text.wordLimit64 = 18446744073709551616 := rfl
    simp only [maxOverlays] at hmax
    omega
  have hplanes : Planes (String.ofList (Nat.toDigits 10 spec.overlays)) spec.overlays :=
    .numeral (by simpa using Text.spells_toDigits spec.overlays) hword
  have hcut := cut_toToken spec
  obtain ⟨t, enabled, n, m⟩ := spec
  obtain rfl : enabled = true := henabled
  cases m with
  | none => exact .planes hcut hplanes hmax
  | some m => exact .monitor hcut hplanes hmax

theorem Describes.enabled_and_le (h : Describes token spec) :
    spec.enabled = true ∧ spec.overlays ≤ maxOverlays := by
  cases h with
  | type => exact ⟨rfl, Nat.zero_le _⟩
  | planes _ _ hmax | monitor _ _ hmax => exact ⟨rfl, hmax⟩

/-- **A token is read exactly when it follows the grammar**, and turned down for its first mistake
otherwise. The specifications that are read are the valid ones of displays that start plugged in. -/
theorem ofToken_grammar (index : Nat) :
    (∀ token spec, ofToken index token = .ok spec ↔ Describes token spec) ∧
      (∀ token e, ofToken index token = .error e ↔ Mistake index token e) ∧
      ∀ spec, (∃ token, ofToken index token = .ok spec) ↔
        spec.enabled = true ∧ spec.validate index = .ok () := by
  refine ⟨fun _ _ => ofToken_eq_ok_iff, fun _ _ => ofToken_eq_error_iff, fun spec => ?_⟩
  rw [validate_eq_ok_iff]
  constructor
  · rintro ⟨token, h⟩
    exact (ofToken_eq_ok_iff.1 h).enabled_and_le
  · rintro ⟨henabled, hmax⟩
    exact ⟨spec.toToken, ofToken_eq_ok_iff.2 (describes_toToken henabled hmax)⟩

end DisplayTopology.ConnectorSpec
