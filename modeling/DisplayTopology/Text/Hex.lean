import DisplayTopology.Text.Quoted
import DisplayTopology.Text.Utf8

/-!
# Hexadecimal digests

A digest writes each byte as two hexadecimal digits. Decoding takes the bytes of the text in pairs
and is permissive: a byte that is no digit counts as zero and an odd byte at the end is dropped, so
a text of `n` bytes always gives `n / 2` (`length_decode`). Strict decoding refuses both cases and
otherwise gives what permissive decoding does (`decodeStrict_eq_ok_iff`). Encoding writes lower-case
digits, and decodes to the bytes it was given (`decode_encode`).
-/

namespace DisplayTopology

/-- What keeps a text from being a digest. -/
inductive HexError where
  /-- The text has this odd number of bytes. -/
  | oddLength (length : Nat)
  /-- The character at this byte offset is no digit. -/
  | invalidChar (c : Char) (offset : Nat)
  deriving DecidableEq

/-- What an error says. -/
def HexError.message : HexError → String
  | oddLength length =>
    "Hex digest has odd length " ++ toString length ++ ", trailing nibble would be dropped"
  | invalidChar c offset =>
    "Invalid hex character " ++ Text.quoteChar c ++ " at offset " ++ toString offset

namespace Hex

/-- The value of a byte as a digit; a byte that is no digit counts as zero. -/
def nibble (b : UInt8) : UInt8 :=
  if 0x30 ≤ b && b ≤ 0x39 then b - 0x30
  else if 0x61 ≤ b && b ≤ 0x66 then b - 0x61 + 10
  else if 0x41 ≤ b && b ≤ 0x46 then b - 0x41 + 10
  else 0

/-- The byte that two digits write. -/
def pair (high low : UInt8) : UInt8 := nibble high <<< 4 ||| nibble low

/-- Decodes digits in pairs; an odd one at the end is dropped. -/
def decodeBytes : Bytes → Bytes
  | high :: low :: rest => pair high low :: decodeBytes rest
  | _ => []

/-- Decodes a text, whatever it holds. -/
def decode (text : String) : Bytes := decodeBytes (Bytes.encode text)

/-- Whether a character is a hexadecimal digit. -/
def isDigit (c : Char) : Bool :=
  c.isDigit || ('a' ≤ c && c ≤ 'f') || ('A' ≤ c && c ≤ 'F')

/-- The first character that is no digit, and its byte offset when the text starts at `offset`. -/
def firstInvalid? (offset : Nat) : List Char → Option (Char × Nat)
  | [] => none
  | c :: cs => if isDigit c then firstInvalid? (offset + c.utf8Size) cs else some (c, offset)

/-- Checks that a text is a digest: digits only, and an even number of them. -/
def validate (text : String) : Except HexError Unit :=
  match firstInvalid? 0 text.toList with
  | some (c, offset) => .error (.invalidChar c offset)
  | none => if text.utf8ByteSize % 2 = 0 then .ok () else .error (.oddLength text.utf8ByteSize)

/-- Decodes a digest, and refuses every other text. -/
def decodeStrict (text : String) : Except HexError Bytes :=
  match validate text with
  | .error e => .error e
  | .ok _ => .ok (decode text)

/-- The digit that writes a value below sixteen. -/
def digit (value : Nat) : Char := Nat.digitChar value

/-- The lower-case digest of some bytes. -/
def encode (bytes : Bytes) : String :=
  String.ofList (bytes.flatMap fun b => [digit (b.toNat / 16), digit (b.toNat % 16)])

/-! ## Decoding -/

theorem length_decodeBytes (bytes : Bytes) : (decodeBytes bytes).length = bytes.length / 2 := by
  match bytes with
  | [] => rfl
  | [_] => simp [decodeBytes]
  | high :: low :: rest =>
    have := length_decodeBytes rest
    simp only [decodeBytes, List.length_cons]
    omega

/-- Two bytes of text give one byte. -/
theorem length_decode (text : String) : (decode text).length = text.utf8ByteSize / 2 := by
  rw [decode, length_decodeBytes, Bytes.length_encode]

theorem decodeStrict_eq_ok_iff {text : String} {bytes : Bytes} :
    decodeStrict text = .ok bytes ↔ validate text = .ok () ∧ bytes = decode text := by
  rw [decodeStrict]
  rcases validate text with e | _ <;> simp [eq_comm (a := bytes)]

theorem decodeStrict_eq_error_iff {text : String} {e : HexError} :
    decodeStrict text = .error e ↔ validate text = .error e := by
  rw [decodeStrict]
  rcases validate text with e | _ <;> simp

theorem encodeChar_digit : ∀ n : Fin 16,
    String.utf8EncodeChar (digit n.val) = [UInt8.ofNat (digit n.val).toNat] ∧
      nibble (UInt8.ofNat (digit n.val).toNat) = UInt8.ofNat n.val := by
  decide

theorem halves_of_byte : ∀ n : Fin 256,
    UInt8.ofNat (n.val / 16) <<< 4 ||| UInt8.ofNat (n.val % 16) = UInt8.ofNat n.val := by
  decide +kernel

/-- The two digits of a byte decode to it. -/
theorem decodeBytes_digits (b : UInt8) (rest : Bytes) :
    decodeBytes (String.utf8EncodeChar (digit (b.toNat / 16)) ++
      (String.utf8EncodeChar (digit (b.toNat % 16)) ++ rest)) = b :: decodeBytes rest := by
  have hb := b.toNat_lt
  obtain ⟨hh, hhn⟩ := encodeChar_digit ⟨b.toNat / 16, by omega⟩
  obtain ⟨hl, hln⟩ := encodeChar_digit ⟨b.toNat % 16, by omega⟩
  simp only at hh hhn hl hln
  rw [hh, hl, List.singleton_append, List.singleton_append, decodeBytes, pair, hhn, hln,
    halves_of_byte ⟨b.toNat, hb⟩, UInt8.ofNat_toNat]

/-- The digest of some bytes decodes to them. -/
theorem decode_encode (bytes : Bytes) : decode (encode bytes) = bytes := by
  rw [decode, encode, Bytes.encode, String.toList_ofList]
  induction bytes with
  | nil => rfl
  | cons b bytes ih =>
    rw [List.flatMap_cons, List.flatMap_append, List.flatMap_cons, List.flatMap_cons,
      List.flatMap_nil, List.append_nil, List.append_assoc, decodeBytes_digits, ih]

end Hex

end DisplayTopology
