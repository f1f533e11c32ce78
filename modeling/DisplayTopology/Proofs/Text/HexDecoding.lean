import DisplayTopology.Text.Hex

/-!
# Permissive and strict decoding agree

Strict decoding refuses what is no digest and otherwise decodes permissively; permissive decoding
reads any text as the digest that is left when its bytes are repaired one by one (`repair`). So the
two say the same about every text (`decoding_agrees`).

Digests up to the case of their digits are byte strings: the lower-case form of a digest is what its
bytes are encoded as (`encode_decode`), and every byte string is decoded from a digest.
-/

namespace DisplayTopology.Hex

variable {c : Char} {cs : List Char} {text s t : String} {bytes : Bytes} {offset k n : Nat}

/-! ## Digits -/

/-- The hexadecimal digits, in both cases. -/
def digits : List Char := "0123456789abcdefABCDEF".toList

theorem isDigit_iff : isDigit c ↔ c ∈ digits := by
  constructor
  · intro h
    have hsmall : c.toNat < 128 := by
      simp only [isDigit, Char.isDigit, Bool.or_eq_true, Bool.and_eq_true, decide_eq_true_eq,
        Char.le_def, UInt32.le_iff_toNat_le] at h
      change ((48 ≤ c.toNat ∧ c.toNat ≤ 57) ∨ (97 ≤ c.toNat ∧ c.toNat ≤ 102)) ∨
        (65 ≤ c.toNat ∧ c.toNat ≤ 70) at h
      omega
    have hall : ∀ n : Fin 128, isDigit (Char.ofNat n) → Char.ofNat n ∈ digits := by decide
    have hc := hall ⟨c.toNat, hsmall⟩
    rw [Char.ofNat_toNat] at hc
    exact hc h
  · have hall : digits.all isDigit := by decide
    exact List.all_eq_true.1 hall c

/-- The byte that a digit is stored as. -/
def byteOf (c : Char) : UInt8 := UInt8.ofNat c.toNat

theorem encodeChar_of_isDigit (h : isDigit c) : String.utf8EncodeChar c = [byteOf c] := by
  have hall : digits.all fun c => String.utf8EncodeChar c = [byteOf c] := by decide
  exact of_decide_eq_true (List.all_eq_true.1 hall c (isDigit_iff.1 h))

theorem flatMap_encodeChar (h : ∀ c ∈ cs, isDigit c) :
    cs.flatMap String.utf8EncodeChar = cs.map byteOf := by
  induction cs with
  | nil => rfl
  | cons c cs ih =>
    obtain ⟨hc, hcs⟩ := List.forall_mem_cons.1 h
    rw [List.flatMap_cons, encodeChar_of_isDigit hc, ih hcs, List.map_cons, List.singleton_append]

/-- A text of digits has as many bytes as digits. -/
theorem utf8ByteSize_of_isDigit (h : ∀ c ∈ text.toList, isDigit c) :
    text.utf8ByteSize = text.toList.length := by
  rw [← Bytes.length_encode, Bytes.encode, flatMap_encodeChar h, List.length_map]

/-! ## Validation -/

/-- A digest is a text of digits, an even number of bytes long. -/
structure IsDigest (text : String) : Prop where
  digits : ∀ c ∈ text.toList, isDigit c
  even : text.utf8ByteSize % 2 = 0

theorem firstInvalid?_eq_none_iff : firstInvalid? offset cs = none ↔ ∀ c ∈ cs, isDigit c := by
  induction cs generalizing offset with
  | nil => simp [firstInvalid?]
  | cons c cs ih =>
    rw [firstInvalid?, List.forall_mem_cons]
    by_cases hc : isDigit c
    · simp [hc, ih]
    · simp [hc]

/-- The character that is reported is the first that is no digit, with the bytes before it. -/
theorem firstInvalid?_eq_some_iff : firstInvalid? offset cs = some (c, k) ↔
    ∃ front back, cs = front ++ c :: back ∧ (∀ d ∈ front, isDigit d) ∧ isDigit c = false ∧
      k = offset + (String.ofList front).utf8ByteSize := by
  induction cs generalizing offset with
  | nil => simp [firstInvalid?]
  | cons head cs ih =>
    have hsize (front : List Char) : (String.ofList (head :: front)).utf8ByteSize =
        head.utf8Size + (String.ofList front).utf8ByteSize := by
      rw [String.ofList_cons, String.utf8ByteSize_append, String.utf8ByteSize_singleton]
    rw [firstInvalid?]
    by_cases hhead : isDigit head
    · rw [if_pos hhead, ih]
      constructor
      · rintro ⟨front, back, rfl, hfront, hc, rfl⟩
        exact ⟨head :: front, back, rfl, List.forall_mem_cons.2 ⟨hhead, hfront⟩, hc,
          by rw [hsize, Nat.add_assoc]⟩
      · rintro ⟨front, back, hcs, hfront, hc, rfl⟩
        rcases List.cons_eq_append_iff.1 hcs with ⟨-, heq⟩ | ⟨front, rfl, rfl⟩
        · obtain ⟨rfl, -⟩ := List.cons.inj heq
          rw [hhead] at hc
          contradiction
        · exact ⟨front, back, rfl, (List.forall_mem_cons.1 hfront).2, hc,
            by rw [hsize, Nat.add_assoc]⟩
    · rw [if_neg hhead]
      constructor
      · rintro ⟨⟩
        exact ⟨[], cs, rfl, by simp, by simpa using hhead, rfl⟩
      · rintro ⟨front, back, hcs, hfront, -, rfl⟩
        rcases List.cons_eq_append_iff.1 hcs with ⟨rfl, heq⟩ | ⟨front, rfl, rfl⟩
        · obtain ⟨rfl, -⟩ := List.cons.inj heq
          rfl
        · exact absurd (hfront head List.mem_cons_self) hhead

theorem validate_eq_ok_iff : validate text = .ok () ↔ IsDigest text := by
  rw [validate]
  split
  · rename_i c k hfirst
    simp only [reduceCtorEq, false_iff]
    intro h
    rw [firstInvalid?_eq_none_iff.2 h.digits] at hfirst
    contradiction
  · rename_i hnone
    split
    · rename_i heven
      exact ⟨fun _ => ⟨firstInvalid?_eq_none_iff.1 hnone, heven⟩, fun _ => rfl⟩
    · rename_i hodd
      simp only [reduceCtorEq, false_iff]
      exact fun h => hodd h.even

theorem validate_eq_invalidChar_iff : validate text = .error (.invalidChar c offset) ↔
    ∃ front back : String, text = front ++ String.singleton c ++ back ∧
      (∀ d ∈ front.toList, isDigit d) ∧ isDigit c = false ∧ offset = front.utf8ByteSize := by
  have hfirst : validate text = .error (.invalidChar c offset) ↔
      firstInvalid? 0 text.toList = some (c, offset) := by
    rw [validate]
    split
    · simp [*]
    · rename_i hnone
      rw [hnone]
      split <;> simp
  rw [hfirst, firstInvalid?_eq_some_iff]
  constructor
  · rintro ⟨front, back, htext, hfront, hc, hoffset⟩
    refine ⟨.ofList front, .ofList back, ?_, by simpa using hfront, hc, by simpa using hoffset⟩
    rw [← String.toList_inj]
    simp [htext]
  · rintro ⟨front, back, rfl, hfront, hc, hoffset⟩
    exact ⟨front.toList, back.toList, by simp, hfront, hc, by simpa using hoffset⟩

theorem validate_eq_oddLength_iff : validate text = .error (.oddLength n) ↔
    (∀ c ∈ text.toList, isDigit c) ∧ text.utf8ByteSize % 2 = 1 ∧ n = text.utf8ByteSize := by
  have hdigits : (∀ c ∈ text.toList, isDigit c) ↔ firstInvalid? 0 text.toList = none :=
    firstInvalid?_eq_none_iff.symm
  rw [hdigits, validate]
  split
  · simp [*]
  · rename_i hnone
    rcases Nat.mod_two_eq_zero_or_one text.utf8ByteSize with hparity | hparity <;>
      simp [hnone, hparity, eq_comm (a := n)]

/-! ## Repairing bytes -/

/-- The digit that a byte counts as: the one it stores, or zero if it stores none. -/
def digitOf (b : UInt8) : Char :=
  if isDigit (Char.ofNat b.toNat) then Char.ofNat b.toNat else '0'

/-- Bytes without an odd one at the end. -/
def evenPart (bytes : Bytes) : Bytes := bytes.take (bytes.length / 2 * 2)

/-- The digest that a text is read as: each byte counts as a digit, but for an odd one at the end. -/
def repair (text : String) : String := .ofList ((evenPart (Bytes.encode text)).map digitOf)

theorem digitOf_spec (b : UInt8) : isDigit (digitOf b) ∧ nibble (byteOf (digitOf b)) = nibble b := by
  have hall : ∀ n : Fin 256, isDigit (digitOf (UInt8.ofNat n)) ∧
      nibble (byteOf (digitOf (UInt8.ofNat n))) = nibble (UInt8.ofNat n) := by decide +kernel
  have hb := hall ⟨b.toNat, b.toNat_lt⟩
  rwa [UInt8.ofNat_toNat] at hb

/-- The bytes of a character that takes several store no digits. -/
theorem digitOf_eq_zero {b : UInt8} (h : 128 ≤ b.toNat) : digitOf b = '0' := by
  have hall : ∀ n : Fin 256, 128 ≤ n.val → digitOf (UInt8.ofNat n) = '0' := by decide +kernel
  have hb := hall ⟨b.toNat, b.toNat_lt⟩ h
  rwa [UInt8.ofNat_toNat] at hb

/-- A character of several bytes counts as as many zeros. -/
theorem map_digitOf_encodeChar (hc : 1 < c.utf8Size) :
    (String.utf8EncodeChar c).map digitOf = List.replicate c.utf8Size '0' := by
  rw [List.eq_replicate_iff, List.length_map, String.length_utf8EncodeChar]
  refine ⟨rfl, fun d hd => ?_⟩
  obtain ⟨b, hb, rfl⟩ := List.mem_map.1 hd
  exact digitOf_eq_zero (Bytes.le_of_mem_encodeChar hc hb)

theorem isDigit_of_mem_map (hc : c ∈ bytes.map digitOf) : isDigit c := by
  obtain ⟨b, -, rfl⟩ := List.mem_map.1 hc
  exact (digitOf_spec b).1

theorem isDigest_repair (text : String) : IsDigest (repair text) := by
  have hdigits : ∀ c ∈ (repair text).toList, isDigit c := by
    rw [repair, String.toList_ofList]
    exact fun c hc => isDigit_of_mem_map hc
  refine ⟨hdigits, ?_⟩
  rw [utf8ByteSize_of_isDigit hdigits, repair, String.toList_ofList, List.length_map, evenPart,
    List.length_take, Nat.min_eq_left (by omega)]
  omega

theorem decodeBytes_map {f : UInt8 → UInt8} (hf : ∀ b, nibble (f b) = nibble b) (bytes : Bytes) :
    decodeBytes (bytes.map f) = decodeBytes bytes := by
  match bytes with
  | [] | [_] => rfl
  | high :: low :: rest =>
    rw [List.map_cons, List.map_cons, decodeBytes, decodeBytes, decodeBytes_map hf rest]
    simp only [pair, hf]

theorem decodeBytes_evenPart (bytes : Bytes) : decodeBytes (evenPart bytes) = decodeBytes bytes := by
  match bytes with
  | [] => rfl
  | [_] => simp [evenPart, decodeBytes]
  | high :: low :: rest =>
    have hlength : (high :: low :: rest).length / 2 * 2 = rest.length / 2 * 2 + 1 + 1 := by
      simp only [List.length_cons]
      omega
    rw [evenPart, hlength, List.take_succ_cons, List.take_succ_cons, ← evenPart, decodeBytes,
      decodeBytes, decodeBytes_evenPart rest]

/-- A text decodes to what it is read as. -/
theorem decode_repair (text : String) : decode (repair text) = decode text := by
  have hstored : Bytes.encode (repair text) =
      (evenPart (Bytes.encode text)).map (byteOf ∘ digitOf) := by
    rw [Bytes.encode, repair, String.toList_ofList,
      flatMap_encodeChar fun c hc => isDigit_of_mem_map hc, List.map_map]
  have hnibble : ∀ b, nibble ((byteOf ∘ digitOf) b) = nibble b := fun b => (digitOf_spec b).2
  rw [decode, hstored, decodeBytes_map hnibble, decodeBytes_evenPart, decode]

/-! ## Digests and bytes -/

/-- Two digits are those of the byte that they write, in lower case. -/
theorem digits_pair {high low : Char} (hhigh : isDigit high) (hlow : isDigit low) :
    digit ((pair (byteOf high) (byteOf low)).toNat / 16) = high.toLower ∧
      digit ((pair (byteOf high) (byteOf low)).toNat % 16) = low.toLower := by
  have hall : digits.all fun high => digits.all fun low =>
      digit ((pair (byteOf high) (byteOf low)).toNat / 16) = high.toLower ∧
        digit ((pair (byteOf high) (byteOf low)).toNat % 16) = low.toLower := by decide +kernel
  have hrow := List.all_eq_true.1 hall high (isDigit_iff.1 hhigh)
  exact of_decide_eq_true (List.all_eq_true.1 hrow low (isDigit_iff.1 hlow))

/-- Digits in pairs are those of the bytes that they write, in lower case. -/
theorem flatMap_decodeBytes {cs : List Char} (hcs : ∀ c ∈ cs, isDigit c) (heven : cs.length % 2 = 0) :
    (decodeBytes (cs.map byteOf)).flatMap
      (fun b => [digit (b.toNat / 16), digit (b.toNat % 16)]) = cs.map Char.toLower := by
  match cs with
  | [] => rfl
  | [_] => simp at heven
  | high :: low :: rest =>
    obtain ⟨hhigh, hlow, hrest⟩ : isDigit high ∧ isDigit low ∧ ∀ c ∈ rest, isDigit c := by
      simpa [List.forall_mem_cons] using hcs
    have hgoes := flatMap_decodeBytes hrest (by simp only [List.length_cons] at heven; omega)
    obtain ⟨hupper, hlower⟩ := digits_pair hhigh hlow
    rw [List.map_cons, List.map_cons, decodeBytes, List.flatMap_cons, hupper, hlower, hgoes,
      List.map_cons, List.map_cons, List.cons_append, List.singleton_append]

theorem toList_toLower (text : String) : text.toLower.toList = text.toList.map Char.toLower :=
  String.toList_map

/-- **The lower-case form of a digest is what its bytes are encoded as.** -/
theorem encode_decode (h : IsDigest text) : encode (decode text) = text.toLower := by
  have heven := h.even
  rw [utf8ByteSize_of_isDigit h.digits] at heven
  rw [← String.toList_inj, encode, String.toList_ofList, decode, Bytes.encode,
    flatMap_encodeChar h.digits, flatMap_decodeBytes h.digits heven, toList_toLower]

theorem decode_toLower (h : IsDigest text) : decode text.toLower = decode text := by
  rw [← encode_decode h, decode_encode]

theorem isDigest_encode (bytes : Bytes) : IsDigest (encode bytes) := by
  have hdigits : ∀ c ∈ (encode bytes).toList, isDigit c := by
    intro c hc
    rw [encode, String.toList_ofList] at hc
    obtain ⟨b, -, hb⟩ := List.mem_flatMap.1 hc
    have hall : ∀ n : Fin 16, isDigit (digit n) := by decide
    have hsmall := b.toNat_lt
    rcases List.mem_cons.1 hb with rfl | hb
    · exact hall ⟨b.toNat / 16, by omega⟩
    · obtain rfl := List.mem_singleton.1 hb
      exact hall ⟨b.toNat % 16, by omega⟩
  refine ⟨hdigits, ?_⟩
  have hlength : (encode bytes).toList.length = 2 * bytes.length := by
    rw [encode, String.toList_ofList, List.length_flatMap]
    simp only [List.length_cons, List.length_nil, List.map_const', List.sum_replicate_nat]
    omega
  rw [utf8ByteSize_of_isDigit hdigits, hlength]
  omega

/-- Digests of the same bytes differ at most in the case of their digits. -/
theorem decode_eq_iff (hs : IsDigest s) (ht : IsDigest t) :
    decode s = decode t ↔ s.toLower = t.toLower := by
  constructor
  · intro h
    rw [← encode_decode hs, ← encode_decode ht, h]
  · intro h
    rw [← decode_toLower hs, ← decode_toLower ht, h]

/-! ## Agreement -/

/-- What strict and permissive decoding say of a text. -/
structure Decoded (text : String) : Prop where
  valid : validate text = .ok () ↔ IsDigest text
  /-- The first character that is no digit is reported, whatever the length of the text. -/
  invalidChar : ∀ c offset, validate text = .error (.invalidChar c offset) ↔
    ∃ front back : String, text = front ++ String.singleton c ++ back ∧
      (∀ d ∈ front.toList, isDigit d) ∧ isDigit c = false ∧ offset = front.utf8ByteSize
  /-- An odd length is reported of digits only. -/
  oddLength : ∀ n, validate text = .error (.oddLength n) ↔
    (∀ c ∈ text.toList, isDigit c) ∧ text.utf8ByteSize % 2 = 1 ∧ n = text.utf8ByteSize
  /-- Strict decoding reports what validation does. -/
  strict_error : ∀ e, decodeStrict text = .error e ↔ validate text = .error e
  /-- Otherwise it decodes as permissive decoding does. -/
  strict_ok : ∀ bytes, decodeStrict text = .ok bytes ↔ validate text = .ok () ∧ bytes = decode text
  length : (decode text).length = text.utf8ByteSize / 2
  /-- Permissive decoding is strict decoding of the repaired text. -/
  repaired : decodeStrict (repair text) = .ok (decode text)

theorem decoded (text : String) : Decoded text where
  valid := validate_eq_ok_iff
  invalidChar _ _ := validate_eq_invalidChar_iff
  oddLength _ := validate_eq_oddLength_iff
  strict_error _ := decodeStrict_eq_error_iff
  strict_ok _ := decodeStrict_eq_ok_iff
  length := length_decode text
  repaired := decodeStrict_eq_ok_iff.2
    ⟨validate_eq_ok_iff.2 (isDigest_repair text), (decode_repair text).symm⟩

/-- **Permissive and strict decoding agree** on every text, a character of several bytes counting as
as many zeros. Digests are decoded to all bytes, and to the same only if they are the same but for
the case of their digits. -/
theorem decoding_agrees :
    (∀ text, Decoded text) ∧
      (∀ c : Char, 1 < c.utf8Size →
        (String.utf8EncodeChar c).map digitOf = List.replicate c.utf8Size '0') ∧
      (∀ bytes, ∃ text, IsDigest text ∧ decode text = bytes) ∧
      ∀ s t, IsDigest s → IsDigest t → (decode s = decode t ↔ s.toLower = t.toLower) :=
  ⟨decoded, fun _ => map_digitOf_encodeChar,
    fun bytes => ⟨encode bytes, isDigest_encode bytes, decode_encode bytes⟩,
    fun _ _ => decode_eq_iff⟩

theorem decoding_agrees_mixedCase :
    1 < 'é'.utf8Size ∧ repair "1é2" = "1002" ∧ decodeStrict "1002" = .ok (decode "1é2") ∧
      IsDigest "DEADbeef" ∧ IsDigest "deadBEEF" ∧ decode "DEADbeef" = decode "deadBEEF" := by
  obtain ⟨hdecoded, -, -, hcase⟩ := decoding_agrees
  have hrepair : repair "1é2" = "1002" := by
    rw [← String.toList_inj, repair, String.toList_ofList]
    decide
  have hdigest : IsDigest "DEADbeef" := ⟨List.all_eq_true.1 (by decide), by decide⟩
  have hdigest' : IsDigest "deadBEEF" := ⟨List.all_eq_true.1 (by decide), by decide⟩
  have hlower : "DEADbeef".toLower = "deadBEEF".toLower := by
    rw [← String.toList_inj, toList_toLower, toList_toLower]
    decide
  refine ⟨by decide, hrepair, ?_, hdigest, hdigest', (hcase _ _ hdigest hdigest').2 hlower⟩
  rw [← hrepair]
  exact (hdecoded "1é2").repaired

end DisplayTopology.Hex
