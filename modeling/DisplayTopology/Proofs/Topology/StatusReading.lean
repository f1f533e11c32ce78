import DisplayTopology.Script.Surface
import DisplayTopology.Surface.Driver
import DisplayTopology.Topology.Graph

/-!
# Reading a status back

A status attribute can be written by anyone, so it may hold any bytes. They are read as a status
exactly when they say one (`Says`): when they are the stored form of a numeral of its code, with
blanks around it or none (`statusOfBytes?_eq_some_iff`). What is shown for bytes that are no text is
neither a blank nor part of a numeral, so such bytes say nothing. Hence a status that was set is read
back whatever was there before, and anything else gives no status, or an error where there is no
file (`status_reading`).
-/

namespace DisplayTopology

namespace Text

variable {c : Char} {cs : List Char} {n : Nat}

theorem Spells.eq_plus_or_isDigit (h : Spells cs n) (hc : c ∈ cs) : c = '+' ∨ c.isDigit := by
  cases h with
  | digits _ h => exact .inr (h c hc)
  | plus _ h => exact (List.mem_cons.1 hc).imp_right (h c)

theorem isBlank_of_isDigit (h : c.isDigit) : isBlank c = false := by
  obtain ⟨hlow, hhigh⟩ : 48 ≤ c.toNat ∧ c.toNat ≤ 57 := by
    simpa [Char.isDigit, UInt32.le_iff_toNat_le] using h
  simp only [isBlank, Bool.or_eq_false_iff, Bool.and_eq_false_iff, decide_eq_false_iff_not,
    beq_eq_false_iff_ne]
  omega

/-- A numeral holds no blanks. -/
theorem Spells.not_isBlank (h : Spells cs n) (hc : c ∈ cs) : isBlank c = false := by
  rcases h.eq_plus_or_isDigit hc with rfl | hdigit
  · rfl
  · exact isBlank_of_isDigit hdigit

theorem Spells.trim_eq (h : Spells cs n) : trim cs = cs :=
  trim_of_not_blank (fun _ hc => h.not_isBlank (List.mem_of_mem_head? hc))
    fun _ hc => h.not_isBlank (List.mem_of_mem_getLast? hc)

end Text

namespace Graph

variable {root : Path} {connector : Nat} {s t : Surface} {data : Bytes} {status : ConnectorStatus}

/-- Bytes say a status: they are the stored form of a numeral of its code, with blanks before and
after it or none. -/
inductive Says : Bytes → ConnectorStatus → Prop where
  | intro {before numeral after : List Char} {status : ConnectorStatus}
    (hbefore : ∀ c ∈ before, Text.isBlank c) (hnumeral : Text.Spells numeral status.code)
    (hafter : ∀ c ∈ after, Text.isBlank c) :
    Says (Bytes.encode (String.ofList (before ++ numeral ++ after))) status

/-- **What is read is what is said.** -/
theorem statusOfBytes?_eq_some_iff : statusOfBytes? data = some status ↔ Says data status := by
  rw [statusOfBytes?, Option.bind_eq_some_iff]
  constructor
  · rintro ⟨n, hread, hcode⟩
    obtain ⟨hspells, -⟩ := Text.numeral?_eq_some_iff.1 hread
    rw [← ConnectorStatus.code_of_ofCode? hcode] at hspells
    obtain ⟨before, after, hshown, hbefore, hafter⟩ := Text.exists_eq_append_trim data.decode
    -- a replacement character would be among the blanks or in the numeral
    have htext : Bytes.replacement ∉ data.decode := by
      rw [hshown, List.mem_append, List.mem_append]
      rintro ((h | h) | h)
      · exact absurd (hbefore _ h) (by decide)
      · exact absurd (hspells.eq_plus_or_isDigit h) (by decide)
      · exact absurd (hafter _ h) (by decide)
    have hsays := Says.intro hbefore hspells hafter
    rwa [← hshown, Bytes.encode_decode htext] at hsays
  · rintro ⟨hbefore, hnumeral, hafter⟩
    have hlimit : status.code < Text.wordLimit32 := by cases status <;> decide
    refine ⟨status.code, ?_, ConnectorStatus.ofCode?_code status⟩
    rw [Bytes.decode_encode, String.toList_ofList, Text.trim_append hbefore hafter,
      hnumeral.trim_eq]
    exact Text.numeral?_eq_some_iff.2 ⟨hnumeral, hlimit⟩

/-- A status that was set is there to be read. -/
theorem entry?_of_setStatus (h : setStatus root connector status s = (.ok (), t)) :
    t.entry? (attrPath root (.connector connector) "status") =
      some (.file (codeBytes status.code)) := by
  have hok := perform_of_ok (congrArg Prod.fst h)
  rw [show (perform _ _ _ _).2 = t from congrArg Prod.snd h] at hok
  exact (Surface.find?_of_write hok _).trans (if_pos rfl)

/-- How a connector's status is answered for each thing that its attribute can be. -/
structure StatusRead (root : Path) (connector : Nat) (s : Surface)
    (r : Except TopologyError (Option ConnectorStatus)) : Prop where
  /-- The status that the contents of a file say is read. -/
  said : ∀ data, s.entry? (attrPath root (.connector connector) "status") = some (.file data) →
    ∀ status, r = .ok (some status) ↔ Says data status
  /-- Contents that say no status are read as none. -/
  unsaid : ∀ data, s.entry? (attrPath root (.connector connector) "status") = some (.file data) →
    (∀ status, ¬Says data status) → r = .ok none
  missing : s.entry? (attrPath root (.connector connector) "status") = none →
    r = .error (.resource .read (attrPath root (.connector connector) "status") .enoent)
  dir : ∀ owner, s.entry? (attrPath root (.connector connector) "status") = some (.dir owner) →
    r = .error (.resource .read (attrPath root (.connector connector) "status") .eisdir)
  link : ∀ target, s.entry? (attrPath root (.connector connector) "status") = some (.link target) →
    r = .error (.resource .read (attrPath root (.connector connector) "status") .einval)

theorem statusRead (root : Path) (connector : Nat) (s : Surface) :
    StatusRead root connector s (readStatus root connector s) := by
  refine ⟨fun data hfile status => ?_, fun data hfile hnone => ?_, fun h => ?_, fun owner h => ?_,
    fun target h => ?_⟩
  · rw [readStatus_of_file hfile, Except.ok.injEq, statusOfBytes?_eq_some_iff]
  · have hread : statusOfBytes? data = none := Option.eq_none_iff_forall_ne_some.2
      fun status hs => hnone status (statusOfBytes?_eq_some_iff.1 hs)
    rw [readStatus_of_file hfile, hread]
  all_goals rw [readStatus_eq, Surface.read, h]

/-- **A status reads back as it was set**, whatever was there before, and in every surface what is
read is what the attribute says. -/
theorem status_reading (root : Path) (connector : Nat) (s : Surface) :
    StatusRead root connector s (readStatus root connector s) ∧
      ∀ status t, setStatus root connector status s = (.ok (), t) →
        readStatus root connector t = .ok (some status) := by
  refine ⟨statusRead root connector s, fun status t hset => ?_⟩
  rw [readStatus_of_file (entry?_of_setStatus hset), statusOfBytes?_codeBytes]

/-- The code of an unplugged connector with leading zeros, a plus sign, an ideographic space before
it and a line feed after it. -/
def paddedCode : Bytes := [0xE3, 0x80, 0x80, 0x2B, 0x30, 0x30, 0x32, 0x0A]

/-- A surface on which someone wrote a padded code for the first connector. -/
def paddedSurface : Surface :=
  SurfaceCall.runAll (.ofDriver (.ofText "/c/v"))
    [.createDir (.ofText "/c/v"), .createDir (.ofText "/c/v/connectors/CONNECTOR_0"),
      .write (.ofText "/c/v/connectors/CONNECTOR_0/status") paddedCode]

theorem status_reading_padded :
    paddedSurface.entry? (attrPath (.ofText "/c/v") (.connector 0) "status") =
        some (.file paddedCode) ∧
      readStatus (.ofText "/c/v") 0 paddedSurface = .ok (some .disconnected) ∧
      ∃ t, setStatus (.ofText "/c/v") 0 .unknown paddedSurface = (.ok (), t) ∧
        readStatus (.ofText "/c/v") 0 t = .ok (some .unknown) := by
  have hfile : paddedSurface.entry? (attrPath (.ofText "/c/v") (.connector 0) "status") =
      some (.file paddedCode) := by decide +kernel
  have hsays : Says paddedCode .disconnected := statusOfBytes?_eq_some_iff.1 (by decide +kernel)
  have hwritten : (setStatus (.ofText "/c/v") 0 .unknown paddedSurface).1.isOk := by decide +kernel
  obtain ⟨hread, hback⟩ := status_reading (.ofText "/c/v") 0 paddedSurface
  refine ⟨hfile, (hread.said _ hfile _).2 hsays, ?_⟩
  cases hset : setStatus (.ofText "/c/v") 0 .unknown paddedSurface with
  | mk answer t =>
    cases answer with
    | error e => simp [hset, Except.isOk, Except.toBool] at hwritten
    | ok _ => exact ⟨t, rfl, hback _ _ hset⟩

/-- Bytes that are no text say nothing, whatever numeral is among them. -/
example : statusOfBytes? [0x31, 0xFF] = none := by decide +kernel

end Graph

end DisplayTopology
