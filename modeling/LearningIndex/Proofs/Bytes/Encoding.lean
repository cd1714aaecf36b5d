import LearningIndex.Proofs.Bytes.Decoding
import LearningIndex.Proofs.Storage.Text

/-!
# The bytes of a text

Bytes that can be decoded are the bytes of the text that they are decoded to.  The bytes of a
character are a first byte, which announces how many they are, and continuation bytes; so a first
byte tells where a character begins.
-/

namespace LearningIndex
namespace Utf8

/-! ## The bytes that are decoded -/

theorem toNat_ofNat_of_range {code : Nat}
    (range : code < 0xd800 ∨ 0xdfff < code ∧ code < 0x110000) : (Char.ofNat code).toNat = code := by
  have valid : code.isValidChar := range
  rw [Char.ofNat, dif_pos valid]
  rfl

theorem ofNat_eq_of_toNat_eq {code : Nat} (byte : UInt8) (same : code = byte.toNat) :
    UInt8.ofNat code = byte := by
  rw [same, UInt8.ofNat_toNat]

section Whole

variable {lead second third fourth : UInt8}

theorem encodeChar_of_one (low : lead < 0x80) :
    encodeChar (Char.ofNat lead.toNat) = [lead] := by
  have small : lead.toNat < 0x80 := by simpa [UInt8.lt_iff_toNat_lt] using low
  rw [encodeChar, toNat_ofNat_of_range (.inl (by omega)), if_pos small, UInt8.ofNat_toNat]

theorem isContinuation_iff {byte : UInt8} :
    isContinuation byte = true ↔ 0x80 ≤ byte.toNat ∧ byte.toNat ≤ 0xbf := by
  simp [isContinuation, UInt8.le_iff_toNat_le]

theorem encodeChar_join2 (width : declaredWidth lead = 2) (fits : isSecond lead second) :
    encodeChar (join2 lead second) = [lead, second] := by
  obtain ⟨low, high, -⟩ := isSecond_iff.mp fits
  have leads : 0xc2 ≤ lead.toNat ∧ lead.toNat ≤ 0xdf := by
    rw [declaredWidth_eq] at width
    grind
  rw [join2, payload, payload, encodeChar, toNat_ofNat_of_range (.inl (by omega)),
    if_neg (by omega), if_pos (by omega), ofNat_eq_of_toNat_eq lead (by omega),
    ofNat_eq_of_toNat_eq second (by omega)]

theorem encodeChar_join3 (width : declaredWidth lead = 3) (fits : isSecond lead second)
    (continues : isContinuation third) :
    encodeChar (join3 lead second third) = [lead, second, third] := by
  obtain ⟨low, high, overlong, surrogate, -⟩ := isSecond_iff.mp fits
  obtain ⟨low', high'⟩ := isContinuation_iff.mp continues
  have leads : 0xe0 ≤ lead.toNat ∧ lead.toNat ≤ 0xef := by
    rw [declaredWidth_eq] at width
    grind
  rw [join3, payload, payload, payload, encodeChar, toNat_ofNat_of_range (by omega),
    if_neg (by omega), if_neg (by omega), if_pos (by omega),
    ofNat_eq_of_toNat_eq lead (by omega),
    ofNat_eq_of_toNat_eq second (by omega),
    ofNat_eq_of_toNat_eq third (by omega)]

theorem encodeChar_join4 (width : declaredWidth lead = 4) (fits : isSecond lead second)
    (continues : isContinuation third) (continues' : isContinuation fourth) :
    encodeChar (join4 lead second third fourth) = [lead, second, third, fourth] := by
  obtain ⟨low, high, -, -, overlong, beyond⟩ := isSecond_iff.mp fits
  obtain ⟨low', high'⟩ := isContinuation_iff.mp continues
  obtain ⟨low'', high''⟩ := isContinuation_iff.mp continues'
  have leads : 0xf0 ≤ lead.toNat ∧ lead.toNat ≤ 0xf4 := by
    rw [declaredWidth_eq] at width
    grind
  rw [join4, payload, payload, payload, payload, encodeChar, toNat_ofNat_of_range (by omega),
    if_neg (by omega), if_neg (by omega), if_neg (by omega),
    ofNat_eq_of_toNat_eq lead (by omega),
    ofNat_eq_of_toNat_eq second (by omega),
    ofNat_eq_of_toNat_eq third (by omega),
    ofNat_eq_of_toNat_eq fourth (by omega)]

end Whole

/-- A first byte with the continuation bytes that it announces. -/
structure IsCharacter (lead : UInt8) (others : ByteString) : Prop where
  fresh : isContinuation lead = false
  announced : declaredWidth lead = others.length + 1
  continued : ∀ byte ∈ others, isContinuation byte

theorem isContinuation_eq_false_of_announced {lead : UInt8} (announced : 1 < declaredWidth lead) :
    isContinuation lead = false := by
  by_contra continues
  have width := declaredWidth_of_isContinuation (Bool.eq_true_of_not_eq_false continues)
  omega

theorem ite_broken_eq_whole_iff {condition : Bool} {found : Front} {character : Char}
    {broken width : Nat} :
    (if condition = true then found else .broken broken) = .whole character width ↔
      condition = true ∧ found = .whole character width := by
  cases condition <;> simp

/-- A whole character at the front of some bytes stands there with all its bytes. -/
theorem encodeChar_of_front {lead : UInt8} {rest : ByteString} {character : Char} {width : Nat}
    (whole : front lead rest = .whole character width) :
    ∃ others later, rest = others ++ later ∧ width = others.length + 1 ∧
      encodeChar character = lead :: others ∧ IsCharacter lead others := by
  have second_continues (second : UInt8) := @isContinuation_of_isSecond lead second
  have announces_more := @isContinuation_eq_false_of_announced lead
  -- A first byte that announces more bytes than there are begins no whole character.
  rcases declaredWidth_cases lead with one | two | three | four
  · obtain ⟨low, rfl, rfl⟩ : lead < 0x80 ∧ Char.ofNat lead.toNat = character ∧ 1 = width := by
      rw [front.eq_def, one] at whole
      grind
    refine ⟨[], rest, rfl, rfl, encodeChar_of_one low, ?_, one, nofun⟩
    rw [← Bool.not_eq_true, isContinuation_iff]
    have small : lead.toNat < 0x80 := by simpa [UInt8.lt_iff_toNat_lt] using low
    omega
  · obtain _ | ⟨second, later⟩ := rest
    · simp [front, two] at whole
    · obtain ⟨fits, rfl, rfl⟩ : isSecond lead second = true ∧ join2 lead second = character ∧
          2 = width := by
        simpa [front, two, ite_broken_eq_whole_iff] using whole
      exact ⟨[second], later, rfl, rfl, encodeChar_join2 two fits, announces_more (by omega), two,
        by simpa using second_continues second fits⟩
  · obtain _ | ⟨second, _ | ⟨third, later⟩⟩ := rest
    · simp [front, three] at whole
    · simp [front, three, ite_broken_eq_whole_iff] at whole
    · obtain ⟨fits, continues, rfl, rfl⟩ : isSecond lead second = true ∧
          isContinuation third = true ∧ join3 lead second third = character ∧ 3 = width := by
        simpa [front, three, ite_broken_eq_whole_iff] using whole
      exact ⟨[second, third], later, rfl, rfl, encodeChar_join3 three fits continues,
        announces_more (by omega), three, by simpa using ⟨second_continues second fits, continues⟩⟩
  · obtain _ | ⟨second, _ | ⟨third, _ | ⟨fourth, later⟩⟩⟩ := rest
    · simp [front, four] at whole
    · simp [front, four, ite_broken_eq_whole_iff] at whole
    · simp [front, four, ite_broken_eq_whole_iff] at whole
    · obtain ⟨fits, continues, continues', rfl, rfl⟩ : isSecond lead second = true ∧
          isContinuation third = true ∧ isContinuation fourth = true ∧
            join4 lead second third fourth = character ∧ 4 = width := by
        simpa [front, four, ite_broken_eq_whole_iff] using whole
      exact ⟨[second, third, fourth], later, rfl, rfl,
        encodeChar_join4 four fits continues continues', announces_more (by omega), four,
        by simpa using ⟨second_continues second fits, continues, continues'⟩⟩

@[simp]
theorem encode_nil : encode [] = [] := rfl

theorem encode_cons (character : Char) (text : List Char) :
    encode (character :: text) = encodeChar character ++ encode text :=
  List.flatMap_cons

@[simp]
theorem encode_append (first second : List Char) :
    encode (first ++ second) = encode first ++ encode second :=
  List.flatMap_append

theorem encode_of_decode? {bytes : ByteString} {text : List Char}
    (decoded : decode? bytes = some text) : encode text = bytes := by
  induction bytes using decode?.induct generalizing text with
  | case1 =>
      obtain rfl : text = [] := by simpa [decode?] using decoded.symm
      rfl
  | case2 lead rest character width whole ih =>
      obtain ⟨others, later, rfl, rfl, encoded, -⟩ := encodeChar_of_front whole
      rw [Nat.add_sub_cancel, List.drop_left] at ih
      rw [decode?, whole] at decoded
      simp only [Nat.add_sub_cancel, List.drop_left, Option.map_eq_some_iff] at decoded
      obtain ⟨remaining, decoded, rfl⟩ := decoded
      rw [encode_cons, encoded, ih decoded, List.cons_append]
  | case3 lead rest width broken =>
      rw [decode?, broken] at decoded
      cases decoded

theorem decode?_eq_some_iff {bytes : ByteString} {text : List Char} :
    decode? bytes = some text ↔ bytes = encode text := by
  constructor
  · exact fun decoded => (encode_of_decode? decoded).symm
  · rintro rfl
    exact decode?_encode text

/-! ## The bytes of a character -/

/-- The bytes of a character are a first byte and the continuation bytes that it announces. -/
theorem exists_isCharacter (character : Char) :
    ∃ lead others, encodeChar character = lead :: others ∧ IsCharacter lead others := by
  obtain ⟨lead, others, -, whole⟩ := front_encodeChar character []
  obtain ⟨others', -, -, -, encoded, parts⟩ := encodeChar_of_front whole
  exact ⟨lead, others', encoded, parts⟩

end Utf8
end LearningIndex
