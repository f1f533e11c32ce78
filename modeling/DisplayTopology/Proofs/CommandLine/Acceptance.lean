import Mathlib.Algebra.Order.BigOperators.Group.List
import Mathlib.Algebra.Order.Group.Nat
import DisplayTopology.CommandLine.Command
import DisplayTopology.Proofs.CommandLine.Grammar
import DisplayTopology.Proofs.Topology.Validity

/-!
# What the command line accepts can be planned

Specifications are looked at twice: token by token when the command line is read, and again when a
plan is built for them. The two agree (`Command.ofArguments_answered`). A command line with tokens
is read when every token is, for the connector at its position, and otherwise turned down for the
first token that is wrong (`ConnectorSpec.ofTokens_eq_ok_iff`, `ConnectorSpec.ofTokens_eq_error_iff`,
by induction on the tokens). What was read asks for at most `maxOverlays` overlays a display, and so
for at most 34 planes, so planning it fails only when there are too many displays
(`Plan.exists_build_eq_ok`). Standard displays have two planes each, and are planned when these can
be counted in a word (`Plan.generic_eq_ok_iff`).
-/

namespace DisplayTopology

namespace ConnectorSpec

variable {tokens : List String} {specs : List ConnectorSpec} {index : Nat} {fault : TokenError}

/-! ## Tokens in a row -/

theorem ofTokens_cons (index : Nat) (token : String) (tokens : List String) :
    ofTokens index (token :: tokens) =
      match ofToken index token, ofTokens (index + 1) tokens with
      | .error fault, _ | .ok _, .error fault => .error fault
      | .ok spec, .ok specs => .ok (spec :: specs) := by
  rw [ofTokens]
  cases ofToken index token <;> cases ofTokens (index + 1) tokens <;> rfl

/-- Tokens are read when each of them is, for the connector at its position, and give the
specifications that they give one by one. -/
theorem ofTokens_eq_ok_iff : ofTokens index tokens = .ok specs ↔
    tokens.mapIdx (fun i token => ofToken (index + i) token) = specs.map .ok := by
  induction tokens generalizing index specs with
  | nil => cases specs <;> simp [ofTokens]
  | cons token tokens ih =>
    have hshift : (fun i token => ofToken (index + (i + 1)) token) =
        fun i token => ofToken (index + 1 + i) token := by
      funext i token
      rw [Nat.add_right_comm, Nat.add_assoc]
    rw [ofTokens_cons, List.mapIdx_cons, Nat.add_zero, hshift]
    cases htoken : ofToken index token with
    | error fault => cases specs <;> simp
    | ok spec =>
      cases specs with
      | nil => cases ofTokens (index + 1) tokens <;> simp
      | cons head specs =>
        rw [List.map_cons, List.cons.injEq, ← ih]
        cases ofTokens (index + 1) tokens <;> simp

/-- The token at a position is turned down, and those before it are read. -/
structure FirstFault (index : Nat) (tokens : List String) (i : Nat) (fault : TokenError) : Prop where
  fault : ∃ token, tokens[i]? = some token ∧ ofToken (index + i) token = .error fault
  before : ∀ j < i, ∀ token, tokens[j]? = some token → ∃ spec, ofToken (index + j) token = .ok spec

theorem firstFault_zero {token : String} :
    FirstFault index (token :: tokens) 0 fault ↔ ofToken index token = .error fault := by
  constructor
  · rintro ⟨⟨other, hother, hfault⟩, -⟩
    obtain rfl : token = other := by simpa using hother
    exact hfault
  · intro hfault
    exact ⟨⟨token, rfl, hfault⟩, fun j hj => absurd hj (Nat.not_lt_zero j)⟩

theorem firstFault_succ {token : String} {i : Nat} :
    FirstFault index (token :: tokens) (i + 1) fault ↔
      (∃ spec, ofToken index token = .ok spec) ∧ FirstFault (index + 1) tokens i fault := by
  have hshift (j : Nat) : index + (j + 1) = index + 1 + j := by omega
  constructor
  · rintro ⟨⟨other, hother, hfault⟩, hbefore⟩
    refine ⟨hbefore 0 (Nat.succ_pos i) token rfl, ⟨other, by simpa using hother, ?_⟩, ?_⟩
    · rwa [← hshift]
    · intro j hj other hother
      rw [← hshift]
      exact hbefore (j + 1) (by omega) other (by simpa using hother)
  · rintro ⟨⟨spec, hspec⟩, ⟨other, hother, hfault⟩, hbefore⟩
    refine ⟨⟨other, by simpa using hother, hshift i ▸ hfault⟩, fun j hj other hother => ?_⟩
    cases j with
    | zero =>
      obtain rfl : token = other := by simpa using hother
      exact ⟨spec, hspec⟩
    | succ j => exact hshift j ▸ hbefore j (by omega) other (by simpa using hother)

/-- Tokens are turned down for the first of them that is wrong. -/
theorem ofTokens_eq_error_iff :
    ofTokens index tokens = .error fault ↔ ∃ i, FirstFault index tokens i fault := by
  induction tokens generalizing index with
  | nil =>
    refine ⟨fun h => by simp [ofTokens] at h, ?_⟩
    rintro ⟨i, ⟨token, htoken, -⟩, -⟩
    simp at htoken
  | cons token tokens ih =>
    rw [ofTokens_cons, ← Nat.or_exists_add_one]
    simp only [firstFault_zero, firstFault_succ, exists_and_left, ← ih]
    cases ofToken index token <;> cases ofTokens (index + 1) tokens <;> simp

/-- A mistake that names a connector names the one that the token is for. -/
theorem index_of_ofToken_eq_error {token : String} {connector requested : Nat}
    (h : ofToken index token = .error (.rejected (.tooManyPlanes connector requested))) :
    connector = index := by
  cases ofToken_eq_error_iff.1 h
  rfl

/-- What tokens give asks for few enough overlays. -/
theorem permitted_of_ofTokens (h : ofTokens index tokens = .ok specs) : Plan.Permitted specs := by
  intro spec hspec
  have hmem : Except.ok spec ∈ tokens.mapIdx fun i token => ofToken (index + i) token := by
    rw [ofTokens_eq_ok_iff.1 h]
    exact List.mem_map_of_mem hspec
  obtain ⟨i, hi, htoken⟩ := List.mem_mapIdx.1 hmem
  exact (ofToken_eq_ok_iff.1 htoken).enabled_and_le.2

theorem length_of_ofTokens (h : ofTokens index tokens = .ok specs) :
    specs.length = tokens.length := by
  have hlength := congrArg List.length (ofTokens_eq_ok_iff.1 h)
  rwa [List.length_mapIdx, List.length_map, eq_comm] at hlength

end ConnectorSpec

namespace Plan

variable {specs : List ConnectorSpec} {count : Nat}

/-! ## Descriptions with few planes -/

/-- Displays with few enough overlays have at most 34 planes each. -/
theorem sum_planesOf_le (count : Nat) (hp : Permitted specs) :
    ((describe count specs).map planesOf).sum ≤ (describe count specs).length * 34 := by
  have hle : ∀ planes ∈ (describe count specs).map planesOf, planes ≤ 34 := by
    intro planes hplanes
    obtain ⟨spec, hspec, rfl⟩ := List.mem_map.1 hplanes
    rw [planesOf_eq_requested hp hspec, requested]
    unfold describe at hspec
    split at hspec
    · obtain rfl := List.eq_of_mem_replicate hspec
      simp
    · obtain ⟨spec, hmem, rfl⟩ := List.mem_map.1 hspec
      have hmax : spec.overlays ≤ maxOverlays := hp spec hmem
      simp only [maxOverlays] at hmax
      simp only [Option.map_some, Option.getD_some]
      omega
  simpa using List.sum_le_card_nsmul _ 34 hle

/-- A description in which nothing is wrong is planned, unless its displays are very many. -/
theorem exists_build_eq_ok (hm : Matching count specs) (hp : Permitted specs)
    (hcount : 34 * count < Text.wordLimit64) : ∃ plan, build count specs = .ok plan := by
  have hsum := sum_planesOf_le count hp
  rw [length_describe hm] at hsum
  have hlt : ((describe count specs).map planesOf).sum < Text.wordLimit64 := by omega
  obtain ⟨plan, hplan, -⟩ := exists_extends_of_lt hlt
  exact ⟨plan, (build_eq_addDisplays hm hp).trans hplan⟩

/-- Standard displays are planned when twice their number is a word. -/
theorem generic_eq_ok_iff (hcount : 0 < count) :
    (∃ plan, generic count = .ok plan) ↔ 2 * count < Text.wordLimit64 := by
  have hbuild : generic count = empty.addDisplays 0 (List.replicate count none) :=
    build_eq_addDisplays ⟨by omega, .inl rfl⟩ (List.forall_mem_nil _)
  have hsum (n : Nat) : ((List.replicate n none).map planesOf).sum = 2 * n := by
    rw [List.map_replicate, List.sum_replicate_nat, Nat.mul_comm]
    rfl
  rw [hbuild]
  constructor
  · rintro ⟨plan, hplan⟩
    by_contra hmany
    -- the first display whose planes can no longer be counted
    have hhalf : 2 * (2 ^ 63 - 1 + 1) = Text.wordLimit64 := rfl
    have hspec : (List.replicate count (none : Option ConnectorSpec))[2 ^ 63 - 1]? = some none :=
      List.getElem?_replicate_of_lt (by omega)
    rw [addDisplays_eq_error hspec] at hplan
    · contradiction
    · rw [List.take_replicate, hsum]
      omega
    · rw [List.take_replicate, hsum]
      omega
  · intro hlt
    obtain ⟨plan, hplan, -⟩ := exists_extends_of_lt (hsum count ▸ hlt)
    exact ⟨plan, hplan⟩

end Plan

namespace Command

variable {args tokens rest : List String} {first text : String} {c : Command} {e : CommandError}

/-! ## Commands -/

/-- The commands that command lines give. -/
inductive Accepts : List String → Command → Prop where
  /-- Clean-up stands alone. -/
  | cleanup : Accepts ["--cleanup"] .cleanup
  /-- There is a token for every display, and it gives the specification of that display. -/
  | config {tokens : List String} {specs : List ConnectorSpec} (hne : tokens ≠ [])
    (hread : tokens.mapIdx ConnectorSpec.ofToken = specs.map .ok) :
    Accepts ("--config" :: tokens) (.config specs)
  /-- A positive number of displays is spelled by the first argument, whatever comes after it. -/
  | generic {first : String} {rest : List String} {n : Nat} (h : Text.Spells first.toList n)
    (hpos : 0 < n) (hlt : n < Text.wordLimit64) : Accepts (first :: rest) (.generic n)

theorem readCount_eq_ok_iff : readCount text = .ok c ↔
    ∃ n, (Text.Spells text.toList n ∧ n < Text.wordLimit64) ∧ 0 < n ∧ c = .generic n := by
  simp only [← Text.numeral?_eq_some_iff, readCount]
  cases Text.numeral? Text.wordLimit64 text.toList with
  | none => simp
  | some n => cases n <;> simp [eq_comm (a := c)]

/-- A numeral does not start with a minus sign. -/
theorem not_spells_of_minus {cs : List Char} {n : Nat} : ¬Text.Spells ('-' :: cs) n := by
  intro h
  cases h with
  | digits _ hdigits => exact absurd (hdigits '-' List.mem_cons_self) (by decide)

theorem ofArguments_config (hne : tokens ≠ []) : ofArguments ("--config" :: tokens) =
    match ConnectorSpec.ofTokens 0 tokens with
    | .ok specs => .ok (.config specs)
    | .error fault => .error (.token fault) := by
  cases htokens : ConnectorSpec.ofTokens 0 tokens <;> simp [ofArguments, hne, htokens]

theorem ofArguments_count (hcleanup : first ≠ "--cleanup") (hconfig : first ≠ "--config") :
    ofArguments (first :: rest) = readCount first := by
  rw [ofArguments, if_neg hcleanup, if_neg hconfig]

/-- Tokens after the option are read as the tokens of displays are. -/
theorem ofArguments_config_eq_ok_iff : ofArguments ("--config" :: tokens) = .ok c ↔
    tokens ≠ [] ∧ ∃ specs, ConnectorSpec.ofTokens 0 tokens = .ok specs ∧ c = .config specs := by
  by_cases hne : tokens = []
  · subst hne
    simp [ofArguments]
  · rw [ofArguments_config hne]
    cases ConnectorSpec.ofTokens 0 tokens <;> simp [hne, eq_comm (a := c)]

theorem ofArguments_config_eq_error_iff (hne : tokens ≠ []) :
    ofArguments ("--config" :: tokens) = .error e ↔
      ∃ i fault, ConnectorSpec.FirstFault 0 tokens i fault ∧ e = .token fault := by
  rw [exists_comm]
  simp only [exists_and_right, ← ConnectorSpec.ofTokens_eq_error_iff, ofArguments_config hne]
  cases ConnectorSpec.ofTokens 0 tokens <;> simp [eq_comm (a := e)]

theorem ofArguments_eq_ok_iff : ofArguments args = .ok c ↔ Accepts args c := by
  have hread {tokens : List String} {specs : List ConnectorSpec} :
      ConnectorSpec.ofTokens 0 tokens = .ok specs ↔
        tokens.mapIdx ConnectorSpec.ofToken = specs.map .ok := by
    rw [ConnectorSpec.ofTokens_eq_ok_iff]
    simp only [Nat.zero_add]
  constructor
  · intro h
    match args with
    | [] => contradiction
    | first :: rest =>
      by_cases hcleanup : first = "--cleanup"
      · subst hcleanup
        by_cases hrest : rest = []
        · subst hrest
          obtain rfl := Except.ok.inj h
          exact .cleanup
        · rw [ofArguments, if_pos rfl, if_neg hrest] at h
          contradiction
      · by_cases hconfig : first = "--config"
        · subst hconfig
          obtain ⟨hne, specs, hspecs, rfl⟩ := ofArguments_config_eq_ok_iff.1 h
          exact .config hne (hread.1 hspecs)
        · rw [ofArguments_count hcleanup hconfig] at h
          obtain ⟨n, ⟨hspells, hlt⟩, hpos, rfl⟩ := readCount_eq_ok_iff.1 h
          exact .generic hspells hpos hlt
  · intro h
    cases h with
    | cleanup => rfl
    | config hne hspecs => exact ofArguments_config_eq_ok_iff.2 ⟨hne, _, hread.2 hspecs, rfl⟩
    | @generic first rest n h hpos hlt =>
      rw [ofArguments_count, readCount_eq_ok_iff]
      · exact ⟨n, ⟨h, hlt⟩, hpos, rfl⟩
      · rintro rfl
        exact not_spells_of_minus h
      · rintro rfl
        exact not_spells_of_minus h

/-- What a command line is answered with, and what becomes of it when displays are planned. -/
structure Answered (args : List String) (r : Except CommandError Command) : Prop where
  /-- Nothing but the commands is accepted. -/
  accepted : ∀ c, r = .ok c ↔ Accepts args c
  /-- Tokens are turned down for the first of them that is wrong. -/
  refused : ∀ tokens, tokens ≠ [] → args = "--config" :: tokens → ∀ e, r = .error e ↔
    ∃ i fault, ConnectorSpec.FirstFault 0 tokens i fault ∧ e = .token fault
  /-- Too many planes are reported for the position of the first token that is wrong. -/
  position : ∀ tokens connector requested, args = "--config" :: tokens →
    r = .error (.token (.rejected (.tooManyPlanes connector requested))) →
    ConnectorSpec.FirstFault 0 tokens connector (.rejected (.tooManyPlanes connector requested))
  /-- Displays that tokens give, one each, are planned, unless the tokens are very many. -/
  config : ∀ tokens specs, args = "--config" :: tokens → r = .ok (.config specs) →
    specs.length = tokens.length ∧ (34 * tokens.length < Text.wordLimit64 →
      ∃ plan, Plan.build specs.length specs = .ok plan ∧ Plan.ofSpecs specs = .ok plan)
  /-- Standard displays are planned exactly when they are fewer than half of the words. -/
  generic : ∀ n, r = .ok (.generic n) → ((∃ plan, Plan.generic n = .ok plan) ↔ n < 2 ^ 63)
  /-- Where the first argument is no option, no other argument matters. -/
  first : ∀ first rest, args = first :: rest → first ≠ "--cleanup" → first ≠ "--config" →
    r = ofArguments [first]

/-- **What the command line accepts can be planned.** -/
theorem ofArguments_answered (args : List String) : Answered args (ofArguments args) := by
  refine ⟨fun c => ofArguments_eq_ok_iff, ?_, ?_, ?_, ?_, ?_⟩
  · rintro tokens hne rfl e
    exact ofArguments_config_eq_error_iff hne
  · rintro tokens connector requested rfl h
    have hne : tokens ≠ [] := by
      rintro rfl
      simp [ofArguments] at h
    obtain ⟨i, fault, hfirst, hfault⟩ := (ofArguments_config_eq_error_iff hne).1 h
    obtain rfl := CommandError.token.inj hfault
    obtain ⟨token, -, htoken⟩ := hfirst.fault
    obtain rfl : connector = 0 + i := ConnectorSpec.index_of_ofToken_eq_error htoken
    exact (Nat.zero_add i).symm ▸ hfirst
  · rintro tokens specs rfl h
    obtain ⟨hne, specs, hspecs, ⟨⟩⟩ := ofArguments_config_eq_ok_iff.1 h
    have hlength := ConnectorSpec.length_of_ofTokens hspecs
    refine ⟨hlength, fun hfew => ?_⟩
    have hcount : specs.length ≠ 0 := by
      rw [hlength]
      exact fun h => hne (List.eq_nil_of_length_eq_zero h)
    obtain ⟨plan, hplan⟩ := Plan.exists_build_eq_ok ⟨hcount, .inr rfl⟩
      (ConnectorSpec.permitted_of_ofTokens hspecs) (hlength ▸ hfew)
    exact ⟨plan, hplan, by rw [Plan.ofSpecs_eq_build, hplan]⟩
  · intro n h
    cases ofArguments_eq_ok_iff.1 h with
    | generic _ hpos =>
      have hhalf : Text.wordLimit64 = 2 * 2 ^ 63 := rfl
      rw [Plan.generic_eq_ok_iff hpos]
      omega
  · rintro first rest rfl hcleanup hconfig
    rw [ofArguments_count hcleanup hconfig, ofArguments_count hcleanup hconfig]

/-- The second token asks for one overlay too many; what is wrong with the third is not seen. -/
example : ofArguments ["--config", "DP,2", "HDMIA,33", "XY"] =
    .error (.token (.rejected (.tooManyPlanes 1 33))) := rfl

end Command

end DisplayTopology
