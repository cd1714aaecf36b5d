import LearningIndex.Proofs.Bytes.Packing

/-!
# Where bytes are cut

A cut is meant to lie where the limit falls and to spare the character that the limit falls into.
The character is recognised by its first byte and by the continuation bytes up to the limit, so a
cut spares all bytes that are announced as a character, also those that are none.  The cuts of some
bytes spare characters and nothing else exactly if no limit falls into announced bytes that are no
character.
-/

namespace LearningIndex

namespace Utf8

/-! ## Characters among bytes -/

/-- All bytes of the character stand in their order from a position on. -/
def StandsAt (bytes : ByteString) (position : Nat) (character : Char) : Prop :=
  encodeChar character <+: bytes.drop position

namespace StandsAt

variable {bytes : ByteString} {position : Nat} {character : Char}

theorem exists_lead (stands : StandsAt bytes position character) :
    ∃ lead, bytes[position]? = some lead ∧ isContinuation lead = false ∧
      declaredWidth lead = (encodeChar character).length := by
  obtain ⟨later, drop_eq⟩ := stands
  obtain ⟨lead, others, encoded, parts⟩ := exists_isCharacter character
  refine ⟨lead, ?_, parts.fresh, ?_⟩
  · rw [← Nat.add_zero position, ← List.getElem?_drop, ← drop_eq, encoded]
    rfl
  · rw [parts.announced, encoded, List.length_cons]

theorem isContinuation_of_inside (stands : StandsAt bytes position character) {index : Nat}
    {byte : UInt8} (above : position < index)
    (below : index < position + (encodeChar character).length)
    (at_index : bytes[index]? = some byte) : isContinuation byte := by
  obtain ⟨later, drop_eq⟩ := stands
  obtain ⟨lead, others, encoded, parts⟩ := exists_isCharacter character
  obtain ⟨offset, rfl⟩ : ∃ offset, index = position + (offset + 1) :=
    ⟨index - position - 1, by omega⟩
  have inside : offset < others.length := by
    rw [encoded, List.length_cons] at below
    omega
  rw [← List.getElem?_drop, ← drop_eq, encoded, List.cons_append, List.getElem?_cons_succ,
    List.getElem?_append_left inside] at at_index
  exact parts.continued byte (List.mem_of_getElem? at_index)

theorem add_length_le (stands : StandsAt bytes position character) :
    position + (encodeChar character).length ≤ bytes.length := by
  have fits := List.IsPrefix.length_le stands
  have filled := Chunk.length_encodeChar_pos character
  rw [List.length_drop] at fits
  omega

end StandsAt
end Utf8

namespace Chunk

open Utf8 (encodeChar StandsAt)

/-! ## Places inside characters -/

/-- The place is strictly inside a character of `width` bytes that begins at `begun`. -/
structure InCharacter (bytes : ByteString) (place begun width : Nat) : Prop where
  stands : ∃ character, StandsAt bytes begun character ∧ (encodeChar character).length = width
  begun_lt : begun < place
  lt_end : place < begun + width

/-- The place is strictly inside the `width` bytes that a first byte at `begun` announces, and the
bytes after the first one continue a character up to there. -/
structure InAnnounced (bytes : ByteString) (place begun width : Nat) : Prop where
  lead : ∃ lead, bytes[begun]? = some lead ∧ Utf8.isContinuation lead = false ∧
    Utf8.declaredWidth lead = width
  begun_lt : begun < place
  lt_end : place < begun + width
  continued : ∀ index byte, begun < index → index ≤ place → bytes[index]? = some byte →
    Utf8.isContinuation byte

/-- The place is strictly inside bytes that are announced as a character and are none. -/
structure InBroken (bytes : ByteString) (place begun width : Nat) : Prop where
  announced : InAnnounced bytes place begun width
  broken : ∀ character, ¬ StandsAt bytes begun character

section Places

variable {bytes : ByteString} {place begun width : Nat}

theorem InCharacter.inAnnounced (inside : InCharacter bytes place begun width) :
    InAnnounced bytes place begun width := by
  obtain ⟨⟨character, stands, rfl⟩, begun_lt, lt_end⟩ := inside
  refine ⟨stands.exists_lead, begun_lt, lt_end, fun index byte above below at_index => ?_⟩
  apply stands.isContinuation_of_inside above _ at_index
  omega

theorem InAnnounced.inCharacter (inside : InAnnounced bytes place begun width) {character : Char}
    (stands : StandsAt bytes begun character) : InCharacter bytes place begun width := by
  obtain ⟨lead, at_begun, -, announced⟩ := inside.lead
  obtain ⟨lead', at_begun', -, announced'⟩ := stands.exists_lead
  obtain rfl := Option.some.inj (at_begun.symm.trans at_begun')
  exact ⟨⟨character, stands, announced'.symm.trans announced⟩, inside.begun_lt, inside.lt_end⟩

/-- The search from a place finds where the bytes around it are announced. -/
theorem inAnnounced_iff :
    InAnnounced bytes place begun width ↔ begun < place ∧ place < begun + width ∧
      ∃ lead, leadBefore? bytes place = some (begun, lead) ∧
        Utf8.declaredWidth lead = width := by
  constructor
  · rintro ⟨⟨lead, at_begun, fresh, announced⟩, begun_lt, lt_end, continued⟩
    have narrow := Utf8.declaredWidth_cases lead
    refine ⟨begun_lt, lt_end, lead, ?_, announced⟩
    exact leadBefore?_of_fresh at_begun fresh begun_lt.le (by omega) continued
  · rintro ⟨begun_lt, lt_end, lead, found, announced⟩
    obtain ⟨at_begun, fresh, -, -, continued⟩ := leadBefore?_eq_some found
    exact ⟨⟨lead, at_begun, fresh, announced⟩, begun_lt, lt_end, continued⟩

theorem InAnnounced.unique {begun' width' : Nat} (inside : InAnnounced bytes place begun width)
    (inside' : InAnnounced bytes place begun' width') : begun = begun' ∧ width = width' := by
  obtain ⟨-, -, lead, found, rfl⟩ := inAnnounced_iff.mp inside
  obtain ⟨-, -, lead', found', rfl⟩ := inAnnounced_iff.mp inside'
  obtain ⟨rfl, rfl⟩ := Prod.mk.inj (Option.some.inj (found.symm.trans found'))
  exact ⟨rfl, rfl⟩

theorem inAnnounced_drop_iff {start : Nat} :
    InAnnounced (bytes.drop start) place begun width ↔
      InAnnounced bytes (start + place) (start + begun) width := by
  constructor
  · rintro ⟨lead, begun_lt, lt_end, continued⟩
    rw [List.getElem?_drop] at lead
    refine ⟨lead, by omega, by omega, fun index byte above below at_index => ?_⟩
    apply continued (index - start) byte (by omega) (by omega)
    rwa [List.getElem?_drop, Nat.add_sub_cancel' (by omega)]
  · rintro ⟨lead, begun_lt, lt_end, continued⟩
    refine ⟨by rwa [List.getElem?_drop], by omega, by omega,
      fun index byte above below at_index => ?_⟩
    apply continued (start + index) byte (by omega) (by omega)
    rwa [← List.getElem?_drop]

end Places

/-! ## Cuts that spare -/

/-- A piece begins at `start` and ends at `stop`: where the limit falls, unless something is found
around that place.  Then it ends where that begins, or behind it if the piece begins with it. -/
structure Spares (around : Nat → Nat → Prop) (limit start stop : Nat) : Prop where
  free : (∀ begun width, ¬ around begun width) → stop = start + limit
  before : ∀ begun width, around begun width → begun ≠ start → stop = begun
  behind : ∀ width, around start width → stop = start + width

section FirstPiece

variable {limit : Nat} {bytes : ByteString}

theorem pieceLength_of_inAnnounced (more : limit < bytes.length) {begun width : Nat}
    (inside : InAnnounced bytes limit begun width) :
    pieceLength limit bytes = if begun = 0 then min width bytes.length else begun := by
  obtain ⟨-, lt_end, lead, found, rfl⟩ := inAnnounced_iff.mp inside
  rw [pieceLength_of_lt_length more, found]
  dsimp only
  rw [if_neg (by omega)]
  by_cases first : begun = 0
  · subst first
    rw [if_neg (Nat.lt_irrefl 0), if_pos rfl, Nat.zero_add]
  · rw [if_pos (Nat.pos_of_ne_zero first), if_neg first]

theorem pieceLength_of_not_inAnnounced (limit_pos : 1 ≤ limit) (more : limit < bytes.length)
    (outside : ∀ begun width, ¬ InAnnounced bytes limit begun width) :
    pieceLength limit bytes = limit := by
  rw [pieceLength_of_lt_length more]
  cases found : leadBefore? bytes limit with
  | none => rfl
  | some hit =>
      obtain ⟨position, lead⟩ := hit
      obtain ⟨-, -, low, -, -⟩ := leadBefore?_eq_some found
      dsimp only
      by_cases finished : position + Utf8.declaredWidth lead ≤ limit
      · rw [if_pos finished]
      · -- The byte that was found is the one where the limit falls.
        obtain rfl : position = limit := by
          by_contra earlier
          apply outside position (Utf8.declaredWidth lead)
          exact inAnnounced_iff.mpr ⟨by omega, by omega, lead, found, rfl⟩
        rw [if_neg finished, if_pos (by omega)]

end FirstPiece

/-- One of the pieces takes the positions from `start` up to `stop`. -/
def IsPiece (limit : Nat) (bytes : ByteString) (start stop : Nat) : Prop :=
  ∃ before piece after, split limit bytes = before ++ piece :: after ∧
    start = before.flatten.length ∧ stop = start + piece.length

/-- A piece that begins at `start` ends at `stop`, before the end of the bytes. -/
structure IsCut (limit : Nat) (bytes : ByteString) (start stop : Nat) : Prop where
  piece : IsPiece limit bytes start stop
  more : stop < bytes.length

section Cuts

variable {limit : Nat} {bytes : ByteString} {start stop : Nat}

theorem pieces_drop {before later : List ByteString}
    (parts : pieces limit bytes = before ++ later) :
    before.flatten.length ≤ bytes.length ∧
      pieces limit (bytes.drop before.flatten.length) = later := by
  induction before generalizing bytes with
  | nil => simpa using parts
  | cons piece before ih =>
      have filled : bytes ≠ [] := by
        rintro rfl
        simp [pieces] at parts
      rw [pieces_eq_cons filled, List.cons_append] at parts
      obtain ⟨piece_eq, later_eq⟩ := List.cons.inj parts
      obtain ⟨inside, rest⟩ := ih later_eq
      subst piece_eq
      have bound := pieceLength_le_length (max limit 1) bytes
      rw [List.length_drop] at inside
      rw [List.drop_drop] at rest
      rw [List.flatten_cons, List.length_append, List.length_take, Nat.min_eq_left bound]
      exact ⟨by omega, rest⟩

theorem IsPiece.stop_eq (limit_pos : 1 ≤ limit) (part : IsPiece limit bytes start stop) :
    start ≤ bytes.length ∧ stop = start + pieceLength limit (bytes.drop start) := by
  obtain ⟨before, piece, after, parts, rfl, rfl⟩ := part
  by_cases filled : bytes = []
  · subst filled
    have single : [[]] = before ++ piece :: after := parts
    obtain ⟨rfl, rfl⟩ : before = [] ∧ piece = [] := by
      cases before with
      | nil => exact ⟨rfl, (List.cons.inj single).1.symm⟩
      | cons first before => simp at single
    exact ⟨Nat.le_refl 0, by simp [pieceLength_of_length_le]⟩
  · rw [split, if_neg (by simpa using filled)] at parts
    obtain ⟨inside, rest⟩ := pieces_drop parts
    have more : bytes.drop before.flatten.length ≠ [] := by
      intro none
      rw [none, pieces] at rest
      cases rest
    rw [pieces_eq_cons more, Nat.max_eq_left limit_pos] at rest
    obtain ⟨rfl, -⟩ := List.cons.inj rest
    have bound := pieceLength_le_length limit (bytes.drop before.flatten.length)
    exact ⟨inside, by rw [List.length_take, Nat.min_eq_left bound]⟩

theorem IsCut.add_lt_length (limit_pos : 1 ≤ limit) (cut : IsCut limit bytes start stop) :
    limit < (bytes.drop start).length := by
  obtain ⟨inside, stop_eq⟩ := cut.piece.stop_eq limit_pos
  have more := cut.more
  by_contra short
  rw [pieceLength_of_length_le (Nat.le_of_not_lt short), List.length_drop] at stop_eq
  omega

theorem IsCut.start_lt_stop (limit_pos : 1 ≤ limit) (cut : IsCut limit bytes start stop) :
    start < stop := by
  have more := cut.add_lt_length limit_pos
  have filled : bytes.drop start ≠ [] := List.ne_nil_of_length_pos (by omega)
  have piece_pos := pieceLength_pos limit_pos filled
  have stop_eq := (cut.piece.stop_eq limit_pos).2
  omega

/-- Each cut spares what is announced in its piece around the place where the limit falls. -/
theorem IsCut.spares_announced (limit_pos : 1 ≤ limit) (cut : IsCut limit bytes start stop) :
    Spares (fun begun width => start ≤ begun ∧ InAnnounced bytes (start + limit) begun width)
      limit start stop := by
  have more := cut.add_lt_length limit_pos
  obtain ⟨-, stop_eq⟩ := cut.piece.stop_eq limit_pos
  have within := cut.more
  constructor
  · intro outside
    rw [stop_eq, pieceLength_of_not_inAnnounced limit_pos more]
    intro begun width inside
    exact outside (start + begun) width ⟨Nat.le_add_right _ _, inAnnounced_drop_iff.mp inside⟩
  · rintro begun width ⟨later, inside⟩ moved
    obtain ⟨offset, rfl⟩ := Nat.exists_eq_add_of_le later
    rw [stop_eq, pieceLength_of_inAnnounced more (inAnnounced_drop_iff.mpr inside),
      if_neg (by omega)]
  · rintro width ⟨-, inside⟩
    rw [← Nat.add_zero start, Nat.add_assoc, Nat.zero_add] at inside
    rw [pieceLength_of_inAnnounced more (inAnnounced_drop_iff.mpr inside), if_pos rfl,
      List.length_drop] at stop_eq
    omega

/-- A cut spares the characters, and nothing else, exactly if the limit falls neither into announced
bytes of its piece that are none nor into a character that was begun before the piece. -/
theorem IsCut.spares_characters_iff (limit_pos : 1 ≤ limit) (cut : IsCut limit bytes start stop) :
    Spares (InCharacter bytes (start + limit)) limit start stop ↔
      (∀ begun width, start ≤ begun → ¬ InBroken bytes (start + limit) begun width) ∧
        ∀ begun width, begun < start → ¬ InCharacter bytes (start + limit) begun width := by
  have forward := cut.start_lt_stop limit_pos
  have announced := cut.spares_announced limit_pos
  constructor
  · intro spares
    refine ⟨fun begun width later inside => ?_, fun begun width earlier inside => ?_⟩
    · have at_limit : stop = start + limit := by
        apply spares.free
        intro begun' width' inside'
        obtain ⟨character, stands, -⟩ := inside'.stands
        obtain ⟨rfl, -⟩ := inside'.inAnnounced.unique inside.announced
        exact inside.broken character stands
      have begun_lt := inside.announced.begun_lt
      have lt_end := inside.announced.lt_end
      by_cases first : begun = start
      · subst first
        have behind := announced.behind width ⟨later, inside.announced⟩
        omega
      · have before := announced.before begun width ⟨later, inside.announced⟩ first
        omega
    · have before := spares.before begun width inside (by omega)
      omega
  · rintro ⟨unbroken, own⟩
    -- Within the piece characters are announced bytes, and here nothing else is.
    have later {begun width : Nat} (inside : InCharacter bytes (start + limit) begun width) :
        start ≤ begun :=
      Nat.le_of_not_lt fun earlier => own begun width earlier inside
    constructor
    · intro outside
      apply announced.free
      rintro begun width ⟨after, inside⟩
      apply unbroken begun width after
      exact ⟨inside, fun character stands => outside begun width (inside.inCharacter stands)⟩
    · intro begun width inside moved
      exact announced.before begun width ⟨later inside, inside.inAnnounced⟩ moved
    · intro width inside
      exact announced.behind width ⟨later inside, inside.inAnnounced⟩

/-- If a piece begins inside no character and its limit falls into no broken one, it ends inside no
character. -/
theorem IsCut.not_inCharacter (limit_pos : 1 ≤ limit) (cut : IsCut limit bytes start stop)
    (unbroken : ∀ begun width, start ≤ begun → ¬ InBroken bytes (start + limit) begun width)
    (free : ∀ begun width, ¬ InCharacter bytes start begun width) (begun width : Nat) :
    ¬ InCharacter bytes stop begun width := by
  intro inside
  have forward := cut.start_lt_stop limit_pos
  have announced := cut.spares_announced limit_pos
  have begun_lt := inside.begun_lt
  have lt_end := inside.lt_end
  have later : start ≤ begun := by
    by_contra earlier
    exact free begun width ⟨inside.stands, by omega, by omega⟩
  by_cases around : ∃ begun' width',
      start ≤ begun' ∧ InAnnounced bytes (start + limit) begun' width'
  · obtain ⟨begun', width', later', inside'⟩ := around
    by_cases first : begun' = start
    · -- The piece is one character, which would overlap with the one around its end.
      subst first
      have behind := announced.behind width' ⟨later', inside'⟩
      obtain ⟨character, stands⟩ : ∃ character, StandsAt bytes begun' character := by
        by_contra broken
        exact unbroken begun' width' later' ⟨inside', not_exists.mp broken⟩
      obtain ⟨⟨character', stands', same⟩, -, -⟩ := inside'.inCharacter stands
      obtain ⟨lead, at_begun, fresh, width_eq⟩ := inside.inAnnounced.lead
      by_cases together : begun = begun'
      · subst together
        obtain ⟨lead', at_begun', -, width_eq'⟩ := inside'.lead
        obtain rfl := Option.some.inj (at_begun.symm.trans at_begun')
        omega
      · have continues := stands'.isContinuation_of_inside (by omega) (by omega) at_begun
        simp [fresh] at continues
    · -- The piece ends in front of a first byte.
      obtain rfl := announced.before begun' width' ⟨later', inside'⟩ first
      obtain ⟨lead, at_stop, fresh, -⟩ := inside'.lead
      have continues := inside.inAnnounced.continued _ lead begun_lt le_rfl at_stop
      simp [fresh] at continues
  · -- The piece ends where the limit falls, which is inside the character.
    have at_limit := announced.free fun begun' width' inside' => around ⟨begun', width', inside'⟩
    subst at_limit
    exact around ⟨begun, width, later, inside.inAnnounced⟩

/-- A piece longer than the limit begins what is announced around the limit. -/
theorem IsPiece.inAnnounced_of_longer (limit_pos : 1 ≤ limit)
    (part : IsPiece limit bytes start stop) (longer : start + limit < stop) :
    ∃ width, InAnnounced bytes (start + limit) start width ∧
      stop = min (start + width) bytes.length := by
  obtain ⟨inside, stop_eq⟩ := part.stop_eq limit_pos
  have more : limit < (bytes.drop start).length := by
    by_contra short
    rw [pieceLength_of_length_le (Nat.le_of_not_lt short)] at stop_eq
    omega
  by_cases around : ∃ begun width, InAnnounced (bytes.drop start) limit begun width
  · obtain ⟨begun, width, announced⟩ := around
    have begun_lt := announced.begun_lt
    rw [pieceLength_of_inAnnounced more announced] at stop_eq
    by_cases first : begun = 0
    · subst first
      refine ⟨width, inAnnounced_drop_iff.mp announced, ?_⟩
      rw [if_pos rfl, List.length_drop] at stop_eq
      omega
    · rw [if_neg first] at stop_eq
      omega
  · rw [pieceLength_of_not_inAnnounced limit_pos more fun begun width announced =>
      around ⟨begun, width, announced⟩] at stop_eq
    omega

end Cuts

/-- If no limit falls into broken announced bytes, every piece begins inside no character. -/
theorem not_inCharacter_start {limit : Nat} {bytes : ByteString} (limit_pos : 1 ≤ limit)
    (unbroken : ∀ start stop, IsCut limit bytes start stop → ∀ begun width, start ≤ begun →
      ¬ InBroken bytes (start + limit) begun width) {before : List ByteString} {piece : ByteString}
    {after : List ByteString} (parts : split limit bytes = before ++ piece :: after)
    (begun width : Nat) : ¬ InCharacter bytes before.flatten.length begun width := by
  induction before using List.reverseRecOn generalizing piece after begun width with
  | nil => exact fun inside => absurd inside.begun_lt (Nat.not_lt_zero begun)
  | append_singleton before previous ih =>
      rw [List.append_assoc, List.singleton_append] at parts
      rw [List.flatten_append, List.length_append, List.flatten_singleton]
      intro inside
      have cut : IsCut limit bytes before.flatten.length
          (before.flatten.length + previous.length) := by
        refine ⟨⟨before, previous, piece :: after, parts, rfl, rfl⟩, ?_⟩
        obtain ⟨character, stands, same⟩ := inside.stands
        have bound := stands.add_length_le
        have lt_end := inside.lt_end
        omega
      exact cut.not_inCharacter limit_pos (unbroken _ _ cut) (ih parts) begun width inside

/-- Each cut spares what is announced in its piece around the place where the limit falls.  It
spares characters and nothing else exactly if the limit falls neither into announced bytes of the
piece that are no character nor into a character begun before the piece, and all cuts do exactly if
no limit falls into announced bytes that are no character.  A piece longer than the limit is one
character, or announced bytes that are none. -/
theorem cuts_spare_announced {limit : Nat} (limit_pos : 1 ≤ limit) (bytes : ByteString) :
    (∀ start stop, IsCut limit bytes start stop →
      Spares (fun begun width => start ≤ begun ∧ InAnnounced bytes (start + limit) begun width)
          limit start stop ∧
        (Spares (InCharacter bytes (start + limit)) limit start stop ↔
          (∀ begun width, start ≤ begun → ¬ InBroken bytes (start + limit) begun width) ∧
            ∀ begun width, begun < start → ¬ InCharacter bytes (start + limit) begun width)) ∧
      ((∀ start stop, IsCut limit bytes start stop →
          Spares (InCharacter bytes (start + limit)) limit start stop) ↔
        ∀ start stop, IsCut limit bytes start stop → ∀ begun width, start ≤ begun →
          ¬ InBroken bytes (start + limit) begun width) ∧
      ∀ start stop, IsPiece limit bytes start stop → start + limit < stop →
        (∃ character, StandsAt bytes start character ∧
          stop = start + (encodeChar character).length) ∨
        ∃ width, InBroken bytes (start + limit) start width ∧
          stop = min (start + width) bytes.length := by
  refine ⟨fun start stop cut =>
      ⟨cut.spares_announced limit_pos, cut.spares_characters_iff limit_pos⟩,
    ⟨fun spares start stop cut => ?_, fun unbroken start stop cut => ?_⟩,
    fun start stop part longer => ?_⟩
  · exact ((cut.spares_characters_iff limit_pos).mp (spares start stop cut)).1
  · refine (cut.spares_characters_iff limit_pos).mpr
      ⟨unbroken start stop cut, fun begun width earlier inside => ?_⟩
    obtain ⟨before, piece, after, parts, rfl, -⟩ := cut.piece
    apply not_inCharacter_start limit_pos unbroken parts begun width
    exact ⟨inside.stands, earlier, lt_of_le_of_lt (Nat.le_add_right _ limit) inside.lt_end⟩
  · obtain ⟨width, announced, stop_eq⟩ := part.inAnnounced_of_longer limit_pos longer
    by_cases whole : ∃ character, StandsAt bytes start character
    · obtain ⟨character, stands⟩ := whole
      obtain ⟨⟨character', stands', rfl⟩, -, -⟩ := announced.inCharacter stands
      have bound := stands'.add_length_le
      exact .inl ⟨character', stands', by omega⟩
    · exact .inr ⟨width, ⟨announced, not_exists.mp whole⟩, stop_eq⟩

namespace Sample

/-- The beginning of a character that is not completed, between two letters. -/
def truncated : ByteString := [0x61, 0xe6, 0x9d, 0x61]

/-- The beginning of a character that is not completed, in front of a letter and a character. -/
def damaged : ByteString := [0xf0, 0x90, 0x61, 0xc3, 0xa9]

theorem isCut_damaged : IsCut 1 damaged 0 4 := by
  have cut : split 1 damaged = [[0xf0, 0x90, 0x61, 0xc3], [0xa9]] :=
    Except.ok.inj ((splitByPosition_eq (by decide) (by decide)).symm.trans (by decide))
  exact ⟨⟨[], [0xf0, 0x90, 0x61, 0xc3], [[0xa9]], cut, rfl, rfl⟩, by decide⟩

/-- The first piece is longer than the limit and no character, and its end cuts the character after
it. -/
theorem cuts_spare_damaged :
    IsCut 1 damaged 0 4 ∧ InCharacter damaged 4 3 2 ∧
      ∃ width, InBroken damaged (0 + 1) 0 width ∧ 4 = min (0 + width) damaged.length := by
  have parts := cuts_spare_announced (show 1 ≤ 1 by decide) damaged
  have stands : StandsAt damaged 3 'é' := ⟨[], rfl⟩
  refine ⟨isCut_damaged, ⟨⟨'é', stands, rfl⟩, by decide, by decide⟩, ?_⟩
  refine (parts.2.2 0 4 isCut_damaged.piece (by decide)).resolve_left ?_
  rintro ⟨character, stands, same⟩
  have continues := stands.isContinuation_of_inside (show 0 < 2 by decide) (by omega)
    (show damaged[2]? = some 0x61 from rfl)
  exact absurd continues (by decide)

/-- The limit falls into the character that is not completed, so a cut that spares characters only
would lie there; but the bytes are cut in front of it. -/
theorem exists_unspared :
    IsCut 2 truncated 0 1 ∧ ¬ Spares (InCharacter truncated (0 + 2)) 2 0 1 := by
  have cut : split 2 truncated = [[0x61], [0xe6, 0x9d], [0x61]] :=
    Except.ok.inj ((splitByPosition_eq (by decide) (by decide)).symm.trans (by decide))
  refine ⟨⟨⟨[], [0x61], [[0xe6, 0x9d], [0x61]], cut, rfl, rfl⟩, by decide⟩, fun spares => ?_⟩
  have at_limit : 1 = 0 + 2 := by
    apply spares.free
    rintro begun width inside
    have announced : InAnnounced truncated (0 + 2) 1 3 :=
      inAnnounced_iff.mpr ⟨by decide, by decide, 0xe6, by decide, by decide⟩
    obtain ⟨rfl, rfl⟩ := inside.inAnnounced.unique announced
    obtain ⟨character, stands, same⟩ := inside.stands
    have continues := stands.isContinuation_of_inside (show 1 < 3 by decide) (by omega)
      (show truncated[3]? = some 0x61 from rfl)
    exact absurd continues (by decide)
  omega

end Sample

end Chunk
end LearningIndex
