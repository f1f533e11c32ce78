/-!
# Text as bytes

Attribute files and the names of entries are bytes. Text is stored as UTF-8 (`encode`); stored bytes
are shown as text by `decode`, where what belongs to no character is shown as replacement
characters, one for each sequence that could begin a character and breaks off. Text reads back from
its stored form (`decode_encode`), and bytes that show no replacement character are such a form
(`encode_decode`). Whatever else is shown was there (`mem_decode`), so what shows as a name without
slashes comes from one.
-/

namespace DisplayTopology

/-- The contents of an attribute file, or the name of an entry. -/
abbrev Bytes := List UInt8

namespace Bytes

/-- A text in UTF-8. -/
def encode (text : String) : Bytes := text.toList.flatMap String.utf8EncodeChar

theorem length_encode (text : String) : (encode text).length = text.utf8ByteSize := by
  rw [encode, ← List.size_toByteArray, String.utf8ByteSize, ← String.utf8Encode_toList,
    List.utf8Encode]

/-- Stands for bytes that belong to no character. -/
def replacement : Char := '\uFFFD'

/-- The character whose UTF-8 form the bytes begin with. -/
def leadingChar? (bytes : Bytes) : Option Char :=
  (bytes.take 4).toByteArray.utf8DecodeChar? 0

/-- The least and the greatest byte that can be second in a character, by the first. -/
def secondRange (first : UInt8) : UInt8 × UInt8 :=
  if first = 0xE0 then (0xA0, 0xBF)
  else if first = 0xED then (0x80, 0x9F)
  else if first = 0xF0 then (0x90, 0xBF)
  else if first = 0xF4 then (0x80, 0x8F)
  else (0x80, 0xBF)

/-- Where bytes begin with no character, the number of those that are shown together: the longest
beginning that could be one of a character, and at least one byte. -/
def brokenLength : Bytes → Nat
  | first :: second :: rest =>
    let (low, high) := secondRange first
    if first < 0xE0 || 0xF4 < first || second < low || high < second then 1
    else if 0xF0 ≤ first && rest.head?.any fun third => 0x80 ≤ third && third ≤ 0xBF then 3
    else 2
  | _ => 1

/-- Reads characters after passing over `skip` bytes, which belong to one already read. -/
def decodeAfter : Nat → Bytes → List Char
  | _, [] => []
  | skip + 1, _ :: bytes => decodeAfter skip bytes
  | 0, b :: bytes =>
    match leadingChar? (b :: bytes) with
    | some c => c :: decodeAfter (c.utf8Size - 1) bytes
    | none => replacement :: decodeAfter (brokenLength (b :: bytes) - 1) bytes

/-- The characters that the bytes show. -/
def decode (bytes : Bytes) : List Char := decodeAfter 0 bytes

/-- The text that the bytes show. -/
def shown (bytes : Bytes) : String := String.ofList bytes.decode

@[simp] theorem encode_empty : encode "" = [] := rfl

@[simp] theorem encode_append (s t : String) : encode (s ++ t) = encode s ++ encode t := by
  simp [encode]

theorem leadingChar?_append (c : Char) (rest : Bytes) :
    leadingChar? (String.utf8EncodeChar c ++ rest) = some c := by
  have hl : (String.utf8EncodeChar c).length ≤ 4 := by
    rw [String.length_utf8EncodeChar]
    exact Char.utf8Size_le_four c
  rw [leadingChar?, List.take_append, List.take_of_length_le hl, List.toByteArray_append]
  exact ByteArray.utf8DecodeChar?_utf8EncodeChar_append

theorem leadingChar?_eq_some_iff {bytes : Bytes} {c : Char} :
    leadingChar? bytes = some c ↔ ∃ rest, bytes = String.utf8EncodeChar c ++ rest := by
  constructor
  · intro h
    have hfront := congrArg (fun b => b.data.toList) (ByteArray.eq_of_utf8DecodeChar?_eq_some h)
    simp only [List.toList_data_toByteArray, ByteArray.data_append, Array.toList_append] at hfront
    rw [← List.take_append_drop 4 bytes, hfront, List.append_assoc]
    exact ⟨_, rfl⟩
  · rintro ⟨rest, rfl⟩
    exact leadingChar?_append c rest

theorem decodeAfter_append (passed rest : Bytes) :
    decodeAfter passed.length (passed ++ rest) = decodeAfter 0 rest := by
  induction passed with
  | nil => rfl
  | cons b passed ih => simpa [decodeAfter] using ih

/-- A character stored in UTF-8 shows as itself. -/
theorem decode_char_append (c : Char) (rest : Bytes) :
    decode (String.utf8EncodeChar c ++ rest) = c :: decode rest := by
  have hc := leadingChar?_append c rest
  have hl := String.length_utf8EncodeChar c
  cases he : String.utf8EncodeChar c with
  | nil =>
    rw [he] at hl
    exact absurd hl.symm (by have := Char.utf8Size_pos c; simp; omega)
  | cons b bs =>
    rw [he] at hc hl
    rw [List.length_cons] at hl
    rw [decode, List.cons_append, decodeAfter, List.cons_append.symm, hc]
    simp only
    rw [show c.utf8Size - 1 = bs.length by omega, decodeAfter_append, decode]

/-- Text reads back from its stored form. -/
theorem decode_encode (text : String) : decode (encode text) = text.toList := by
  have (cs : List Char) : decode (cs.flatMap String.utf8EncodeChar) = cs := by
    induction cs with
    | nil => rfl
    | cons c cs ih => rw [List.flatMap_cons, decode_char_append, ih]
  exact this text.toList

/-- Bytes that show no replacement character are the stored form of what they show. -/
theorem encode_decode {bytes : Bytes} (h : replacement ∉ decode bytes) :
    encode (String.ofList (decode bytes)) = bytes := by
  induction hn : bytes.length using Nat.strongRecOn generalizing bytes with
  | ind n ih =>
    cases bytes with
    | nil => rfl
    | cons b bytes =>
      cases hc : leadingChar? (b :: bytes) with
      | none =>
        rw [decode, decodeAfter, hc] at h
        simp at h
      | some c =>
        obtain ⟨rest, hrest⟩ := leadingChar?_eq_some_iff.1 hc
        have hlen := congrArg List.length hrest
        rw [List.length_append, String.length_utf8EncodeChar] at hlen
        have hpos := Char.utf8Size_pos c
        rw [hrest, decode_char_append] at h ⊢
        have hgoes := ih rest.length (by omega) (fun hr => h (List.mem_cons_of_mem c hr)) rfl
        rw [encode, String.toList_ofList] at hgoes ⊢
        rw [List.flatMap_cons, hgoes]

/-! ## Shown text -/

/-- The text that was stored is shown. -/
@[simp] theorem shown_encode (text : String) : shown (encode text) = text := by
  rw [shown, decode_encode, String.ofList_toList]

theorem encode_injective {s t : String} (h : encode s = encode t) : s = t := by
  rw [← shown_encode s, h, shown_encode]

/-- Bytes that show a text without replacement characters are its stored form. -/
theorem encode_shown {bytes : Bytes} (h : replacement ∉ bytes.shown.toList) :
    encode bytes.shown = bytes :=
  encode_decode (by rwa [shown, String.toList_ofList] at h)

/-- Only no bytes show nothing. -/
theorem shown_eq_empty_iff {bytes : Bytes} : bytes.shown = "" ↔ bytes = [] := by
  constructor
  · intro h
    have hback : encode bytes.shown = bytes := encode_shown (by simp [h])
    rw [← hback, h, encode_empty]
  · rintro rfl
    rfl

/-- A character that is shown is a replacement character, or its bytes are there. -/
theorem mem_decode {bytes : Bytes} {c : Char} (h : c ∈ bytes.decode) :
    c = replacement ∨ String.utf8EncodeChar c ⊆ bytes := by
  have key (skip : Nat) (bytes : Bytes) (h : c ∈ decodeAfter skip bytes) :
      c = replacement ∨ String.utf8EncodeChar c ⊆ bytes := by
    fun_induction decodeAfter skip bytes with
    | case1 => simp at h
    | case2 skip b bytes ih => exact (ih h).imp_right (List.subset_cons_of_subset b)
    | case3 b bytes d hd ih =>
      rcases List.mem_cons.1 h with rfl | h
      · obtain ⟨rest, hrest⟩ := leadingChar?_eq_some_iff.1 hd
        exact .inr (hrest ▸ List.subset_append_left ..)
      · exact (ih h).imp_right (List.subset_cons_of_subset b)
    | case4 b bytes hd ih =>
      rcases List.mem_cons.1 h with rfl | h
      · exact .inl rfl
      · exact (ih h).imp_right (List.subset_cons_of_subset b)
  exact key 0 bytes h

/-- The bytes of a character that takes more than one are none of ASCII. -/
theorem le_of_mem_encodeChar {c : Char} (hc : 1 < c.utf8Size) {b : UInt8}
    (hb : b ∈ String.utf8EncodeChar c) : 128 ≤ b.toNat := by
  have hlarge : ¬c.val.toNat ≤ 127 := by
    intro hsmall
    have hone := Char.utf8Size_eq_one_iff.2 (UInt32.le_iff_toNat_le.2 hsmall)
    omega
  simp only [String.utf8EncodeChar, if_neg hlarge] at hb
  split at hb
  · simp only [List.mem_cons, List.not_mem_nil, or_false] at hb
    rcases hb with rfl | rfl <;> rw [UInt8.toNat_ofNat'] <;> omega
  · split at hb <;> simp only [List.mem_cons, List.not_mem_nil, or_false] at hb
    · rcases hb with rfl | rfl | rfl <;> rw [UInt8.toNat_ofNat'] <;> omega
    · rcases hb with rfl | rfl | rfl | rfl <;> rw [UInt8.toNat_ofNat'] <;> omega

/-- A byte of ASCII stands for its own character only. -/
theorem mem_encode_iff {text : String} {c : Char} (hc : c.val.toNat < 128) :
    UInt8.ofNat c.val.toNat ∈ encode text ↔ c ∈ text.toList := by
  have hself : String.utf8EncodeChar c = [UInt8.ofNat c.val.toNat] := by
    rw [String.utf8EncodeChar, if_pos (by omega)]
  rw [encode, List.mem_flatMap]
  constructor
  · rintro ⟨d, hd, hb⟩
    obtain rfl : c = d := by
      by_cases hsize : 1 < d.utf8Size
      · have hle := le_of_mem_encodeChar hsize hb
        rw [UInt8.toNat_ofNat'] at hle
        omega
      · have hone : d.utf8Size = 1 := by
          have := Char.utf8Size_pos d
          omega
        have hsmall : d.val.toNat ≤ 127 :=
          UInt32.le_iff_toNat_le.1 (Char.utf8Size_eq_one_iff.1 hone)
        rw [String.utf8EncodeChar, if_pos hsmall, List.mem_singleton, ← UInt8.toNat_inj,
          UInt8.toNat_ofNat', UInt8.toNat_ofNat', Nat.mod_eq_of_lt (by omega),
          Nat.mod_eq_of_lt (by omega)] at hb
        exact Char.ext (UInt32.toNat_inj.1 hb)
    exact hd
  · exact fun h => ⟨c, h, by simp [hself]⟩

end Bytes

end DisplayTopology
