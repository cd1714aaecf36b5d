import LearningIndex.Proofs.Json.RoundTrip
import LearningIndex.Storage.Snapshot

/-!
# Texts in files

The bytes of a text are well-formed, and decoding gives the text back: the first byte of a character
announces how many bytes follow it, and the payloads of the bytes make up its code point.  So a file
that was written as the compact text of a JSON value is read as the literal of the value.
-/

namespace LearningIndex
namespace Utf8

/-! ## Whole characters -/

section Whole

variable {lead second third fourth : UInt8} (rest : ByteString)

theorem front_one (low : lead < 0x80) (width : declaredWidth lead = 1) :
    front lead rest = .whole (Char.ofNat lead.toNat) 1 := by
  simp [front, width, low]

theorem front_two (width : declaredWidth lead = 2) (fits : isSecond lead second) :
    front lead (second :: rest) = .whole (join2 lead second) 2 := by
  simp [front, width, fits]

theorem front_three (width : declaredWidth lead = 3) (fits : isSecond lead second)
    (continues : isContinuation third) :
    front lead (second :: third :: rest) = .whole (join3 lead second third) 3 := by
  simp [front, width, fits, continues]

theorem front_four (width : declaredWidth lead = 4) (fits : isSecond lead second)
    (continues : isContinuation third) (continues' : isContinuation fourth) :
    front lead (second :: third :: fourth :: rest) = .whole (join4 lead second third fourth) 4 := by
  simp [front, width, fits, continues, continues']

theorem declaredWidth_eq (lead : UInt8) :
    declaredWidth lead = if 0xc2 ≤ lead.toNat ∧ lead.toNat ≤ 0xdf then 2
      else if 0xe0 ≤ lead.toNat ∧ lead.toNat ≤ 0xef then 3
      else if 0xf0 ≤ lead.toNat ∧ lead.toNat ≤ 0xf4 then 4 else 1 := by
  simp [declaredWidth, UInt8.le_iff_toNat_le]

/-- The second byte is bounded by the first one where the code point would be too small, half of a
surrogate pair or too large. -/
theorem isSecond_iff : isSecond lead second = true ↔
    0x80 ≤ second.toNat ∧ second.toNat ≤ 0xbf ∧
      (lead.toNat = 0xe0 → 0xa0 ≤ second.toNat) ∧ (lead.toNat = 0xed → second.toNat ≤ 0x9f) ∧
      (lead.toNat = 0xf0 → 0x90 ≤ second.toNat) ∧ (lead.toNat = 0xf4 → second.toNat ≤ 0x8f) := by
  simp only [isSecond, isContinuation, beq_iff_eq, UInt8.le_iff_toNat_le, ← UInt8.toNat_inj]
  grind

end Whole

/-! ## The bytes of a character -/

theorem toNat_ofNat_of_lt {code : Nat} (byte : code < 0x100) : (UInt8.ofNat code).toNat = code := by
  rw [UInt8.toNat_ofNat', Nat.mod_eq_of_lt byte]

theorem payload_ofNat {marker code : Nat} (byte : marker + code < 0x100) :
    payload marker (UInt8.ofNat (marker + code)) = code := by
  rw [payload, toNat_ofNat_of_lt byte, Nat.add_sub_cancel_left]

theorem isContinuation_ofNat {code : Nat} (six : code < 0x40) :
    isContinuation (UInt8.ofNat (0x80 + code)) = true := by
  have byte := toNat_ofNat_of_lt (show 0x80 + code < 0x100 by omega)
  simp only [isContinuation, UInt8.le_iff_toNat_le, byte, Bool.and_eq_true, decide_eq_true_eq]
  grind

theorem toNat_range (character : Char) : character.toNat < 0xd800 ∨
    0xdfff < character.toNat ∧ character.toNat < 0x110000 :=
  character.valid

section Code

variable {code : Nat} (rest : ByteString)

theorem front_code_one (small : code < 0x80) :
    front (UInt8.ofNat code) rest = .whole (Char.ofNat code) 1 := by
  have lead := toNat_ofNat_of_lt (show code < 0x100 by omega)
  rw [front_one rest, lead]
  · rw [UInt8.lt_iff_toNat_lt, lead]
    exact small
  · rw [declaredWidth_eq, lead, if_neg (by omega), if_neg (by omega), if_neg (by omega)]

theorem front_code_two (large : ¬code < 0x80) (small : code < 0x800) :
    front (UInt8.ofNat (0xc0 + code / 0x40)) (UInt8.ofNat (0x80 + code % 0x40) :: rest) =
      .whole (Char.ofNat code) 2 := by
  have lead := toNat_ofNat_of_lt (show 0xc0 + code / 0x40 < 0x100 by omega)
  have second := toNat_ofNat_of_lt (show 0x80 + code % 0x40 < 0x100 by omega)
  have point : code / 0x40 * 0x40 + code % 0x40 = code := by omega
  rw [front_two rest, join2, payload_ofNat (by omega), payload_ofNat (by omega), point]
  · rw [declaredWidth_eq, lead, if_pos (by omega)]
  · rw [isSecond_iff, lead, second]
    omega

theorem front_code_three (large : ¬code < 0x800) (small : code < 0x10000)
    (whole : code < 0xd800 ∨ 0xdfff < code) :
    front (UInt8.ofNat (0xe0 + code / 0x1000)) (UInt8.ofNat (0x80 + code / 0x40 % 0x40) ::
      UInt8.ofNat (0x80 + code % 0x40) :: rest) = .whole (Char.ofNat code) 3 := by
  have lead := toNat_ofNat_of_lt (show 0xe0 + code / 0x1000 < 0x100 by omega)
  have second := toNat_ofNat_of_lt (show 0x80 + code / 0x40 % 0x40 < 0x100 by omega)
  have point : code / 0x1000 * 0x1000 + code / 0x40 % 0x40 * 0x40 + code % 0x40 = code := by
    omega
  rw [front_three rest _ _ (isContinuation_ofNat (by omega)), join3, payload_ofNat (by omega),
    payload_ofNat (by omega), payload_ofNat (by omega), point]
  · rw [declaredWidth_eq, lead, if_neg (by omega), if_pos (by omega)]
  · rw [isSecond_iff, lead, second]
    omega

theorem front_code_four (large : ¬code < 0x10000) (small : code < 0x110000) :
    front (UInt8.ofNat (0xf0 + code / 0x40000)) (UInt8.ofNat (0x80 + code / 0x1000 % 0x40) ::
      UInt8.ofNat (0x80 + code / 0x40 % 0x40) :: UInt8.ofNat (0x80 + code % 0x40) :: rest) =
      .whole (Char.ofNat code) 4 := by
  have lead := toNat_ofNat_of_lt (show 0xf0 + code / 0x40000 < 0x100 by omega)
  have second := toNat_ofNat_of_lt (show 0x80 + code / 0x1000 % 0x40 < 0x100 by omega)
  have point : code / 0x40000 * 0x40000 + code / 0x1000 % 0x40 * 0x1000 +
      code / 0x40 % 0x40 * 0x40 + code % 0x40 = code := by
    omega
  rw [front_four rest _ _ (isContinuation_ofNat (by omega)) (isContinuation_ofNat (by omega)),
    join4, payload_ofNat (by omega), payload_ofNat (by omega), payload_ofNat (by omega),
    payload_ofNat (by omega), point]
  · rw [declaredWidth_eq, lead, if_neg (by omega), if_neg (by omega), if_pos (by omega)]
  · rw [isSecond_iff, lead, second]
    omega

end Code

/-- The bytes of a character stand in front as the whole character, whatever follows them. -/
theorem front_encodeChar (character : Char) (rest : ByteString) :
    ∃ lead others, encodeChar character = lead :: others ∧
      front lead (others ++ rest) = .whole character (others.length + 1) := by
  have range := toNat_range character
  have point := Char.ofNat_toNat character
  unfold encodeChar
  -- Only the code point counts from here on, and which character it belongs to.
  generalize character.toNat = code at range point ⊢
  subst point
  dsimp only
  split_ifs with one two three
  · exact ⟨_, _, rfl, front_code_one rest one⟩
  · exact ⟨_, _, rfl, front_code_two rest one two⟩
  · exact ⟨_, _, rfl, front_code_three rest two three (by omega)⟩
  · exact ⟨_, _, rfl, front_code_four rest three (by omega)⟩

theorem decode?_encode (text : List Char) : decode? (encode text) = some text := by
  induction text with
  | nil => simp [encode, decode?]
  | cons character text ih =>
      obtain ⟨lead, others, bytes, whole⟩ := front_encodeChar character (encode text)
      have encoded : encode (character :: text) = lead :: (others ++ encode text) := by
        rw [encode, List.flatMap_cons, bytes, List.cons_append]
        rfl
      rw [encoded, decode?, whole]
      simp [ih]

end Utf8

namespace Storage

/-- Whether bytes are a JSON text of a value, be it compact or with blanks between its parts. -/
def Holds (bytes : ByteString) (value : Json) : Prop :=
  literalOf? bytes = some (.ofValue value)

theorem holds_compact {value : Json} (legible : value.IsLegible) :
    Holds (Utf8.ofString value.compact) value := by
  rw [Holds, literalOf?, Utf8.ofString, Utf8.decode?_encode, Json.compact, String.toList_ofList]
  exact legible.literal?_render

end Storage
end LearningIndex
