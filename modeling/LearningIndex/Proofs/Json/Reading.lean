import Mathlib.Data.List.TakeWhile
import LearningIndex.Proofs.Calendar.Bound
import LearningIndex.Proofs.Json.Quotation

/-!
# Reading what was written

The compact text of a value that is nested from null, truth values, integers, strings, arrays and
objects is read as the literal of the value, whatever follows it, and the literal stands for the
value as long as it is not nested deeper than the reader allows.  The text has no raw control
character, so it fits on one line.
-/

namespace LearningIndex

/-! ## Numbers -/

namespace Text

theorem decimal_eq_concat {number : Nat} (large : ¬number < 10) :
    decimal number = decimal (number / 10) ++ [digit (number % 10)] := by
  rw [decimal, if_neg large]

theorem head?_decimal_ne {number : Nat} (positive : 0 < number) :
    (decimal number).head? ≠ some '0' := by
  induction number using decimal.induct with
  | case1 number small =>
      rw [decimal, if_pos small, List.head?_cons, Ne, Option.some.injEq]
      intro zero
      have value := toNat_digit small
      rw [zero] at value
      change 48 = 48 + number at value
      omega
  | case2 number large ih =>
      rw [decimal_eq_concat large, List.head?_append_of_ne_nil _ (decimal_ne_nil _)]
      exact ih (by omega)

theorem isDigit_of_mem_decimal {number : Nat} {character : Char}
    (member : character ∈ decimal number) : isDigit character = true :=
  isDigit_iff.mpr (by have range := toNat_of_mem_decimal member; omega)

theorem exists_decimal_eq_cons (number : Nat) :
    ∃ first rest, decimal number = first :: rest ∧ isDigit first = true := by
  obtain ⟨first, rest, text⟩ := List.exists_cons_of_ne_nil (decimal_ne_nil number)
  exact ⟨first, rest, text, isDigit_of_mem_decimal (text ▸ List.mem_cons_self)⟩

end Text

theorem NumberLiteral.text_ofInt (value : Int) :
    (ofInt value).text =
      (if value < 0 then ['-'] else []) ++ Text.decimal value.natAbs := by
  simp [text, ofInt]

/-- The literal of an integer of 64 bits, with or without a sign, stands for the integer. -/
theorem NumberLiteral.integer?_ofInt {value : Int} (least : -0x8000000000000000 ≤ value)
    (most : value < 0x10000000000000000) : (ofInt value).integer? = some value := by
  simp only [integer?, ofInt, Text.readDigits_decimal]
  split_ifs with negative range range <;> simp only [decide_eq_true_eq] at negative
  · rw [Option.some.injEq]
    omega
  · omega
  · rw [Option.some.injEq]
    omega
  · omega

theorem NumberLiteral.exists_text_ofInt_eq_cons (value : Int) :
    ∃ first rest, (ofInt value).text = first :: rest ∧
      (first = '-' ∨ Text.isDigit first = true) := by
  rw [text_ofInt]
  split
  · exact ⟨'-', _, rfl, .inl rfl⟩
  · obtain ⟨first, rest, text, digit⟩ := Text.exists_decimal_eq_cons value.natAbs
    exact ⟨first, rest, text, .inr digit⟩

namespace Json

/-- A number ends where a text begins that has no digit, point or exponent in front. -/
def EndsNumber (text : List Char) : Prop :=
  ∀ character ∈ text.head?,
    Text.isDigit character = false ∧ character ≠ '.' ∧ character ≠ 'e' ∧ character ≠ 'E'

theorem endsNumber_nil : EndsNumber [] := by
  simp [EndsNumber]

theorem endsNumber_cons {mark : Char} (rest : List Char)
    (ending : mark = ',' ∨ mark = ']' ∨ mark = '\x7d') : EndsNumber (mark :: rest) := by
  intro character first
  obtain rfl : mark = character := Option.some.inj first
  rcases ending with rfl | rfl | rfl <;> decide

theorem spanDigits_decimal (number : Nat) {after : List Char} (ends : EndsNumber after) :
    spanDigits (Text.decimal number ++ after) = (Text.decimal number, after) := by
  have digits : ∀ character ∈ Text.decimal number, Text.isDigit character = true :=
    fun _ => Text.isDigit_of_mem_decimal
  rw [spanDigits, List.takeWhile_append_of_pos digits, List.dropWhile_append_of_pos digits]
  cases after with
  | nil => simp
  | cons character rest =>
      obtain ⟨other, -⟩ := ends character rfl
      rw [List.takeWhile_cons_of_neg (by simp [other]),
        List.dropWhile_cons_of_neg (by simp [other]), List.append_nil]

theorem isWhole_decimal (number : Nat) : isWhole (Text.decimal number) = true := by
  by_cases small : number < 10
  · rw [Text.decimal, if_pos small, isWhole]
  · have first := Text.head?_decimal_ne (show 0 < number by omega)
    obtain ⟨digit, rest, text⟩ := List.exists_cons_of_ne_nil (Text.decimal_ne_nil number)
    rw [text, List.head?_cons, Ne, Option.some.injEq] at first
    rw [text]
    cases rest with
    | nil => rfl
    | cons next rest => exact bne_iff_ne.mpr first

theorem readMagnitude_decimal (negative : Bool) (number : Nat) {after : List Char}
    (ends : EndsNumber after) :
    readMagnitude negative (Text.decimal number ++ after) =
      some (⟨negative, Text.decimal number, none, none⟩, after) := by
  have fraction : readFraction after = some (none, after) := by
    unfold readFraction
    split
    · exact absurd rfl (ends '.' rfl).2.1
    · rfl
  have exponent : readExponent after = some (none, after) := by
    cases after with
    | nil => rfl
    | cons character rest =>
        obtain ⟨-, -, small, large⟩ := ends character rfl
        unfold readExponent
        exact if_neg (not_or.mpr ⟨small, large⟩)
  simp [readMagnitude, spanDigits_decimal number ends, isWhole_decimal, fraction, exponent]

theorem readNumber_ofInt (value : Int) {after : List Char} (ends : EndsNumber after) :
    readNumber ((NumberLiteral.ofInt value).text ++ after) =
      some (NumberLiteral.ofInt value, after) := by
  rw [NumberLiteral.text_ofInt, NumberLiteral.ofInt]
  by_cases negative : value < 0
  · simp [negative, readNumber, readMagnitude_decimal _ _ ends]
  · rw [if_neg negative, List.nil_append, readNumber]
    · simp [negative, readMagnitude_decimal _ _ ends]
    · intro rest minus
      obtain ⟨first, others, text, digit⟩ := Text.exists_decimal_eq_cons value.natAbs
      rw [text, List.cons_append, List.cons.injEq] at minus
      exact absurd (minus.1 ▸ digit) (by decide)

/-! ## Values -/

/-- The values without floating point numbers: integers have 64 bits, with or without a sign, and
an object lists its fields by ascending name. -/
inductive IsPlain : Json → Prop
  | null : IsPlain null
  | bool (value : Bool) : IsPlain (bool value)
  | integer {value : Int} (least : -0x8000000000000000 ≤ value)
      (most : value < 0x10000000000000000) : IsPlain (integer value)
  | string (text : String) : IsPlain (string text)
  | array {items : List Json} (plain : ∀ item ∈ items, IsPlain item) : IsPlain (array items)
  | object {fields : Fields} (ascending : fields.Pairwise (·.1 < ·.1))
      (plain : ∀ field ∈ fields, IsPlain field.2) : IsPlain (object fields)

/-- The values whose literal can be read from their text: in an object the fields may stand in any
order, and a name may be repeated. -/
inductive IsLegible : Json → Prop
  | null : IsLegible null
  | bool (value : Bool) : IsLegible (bool value)
  | integer (value : Int) : IsLegible (integer value)
  | string (text : String) : IsLegible (string text)
  | array {items : List Json} (legible : ∀ item ∈ items, IsLegible item) : IsLegible (array items)
  | object {fields : List (String × Json)} (legible : ∀ field ∈ fields, IsLegible field.2) :
      IsLegible (object fields)

theorem IsPlain.isLegible {value : Json} (plain : IsPlain value) : IsLegible value := by
  induction plain with
  | null => exact .null
  | bool value => exact .bool value
  | integer least most => exact .integer _
  | string text => exact .string text
  | array plain ih => exact .array ih
  | object ascending plain ih => exact .object ih

mutual

theorem write_eq (value : Json) (after : List Char) :
    value.write after = value.render ++ after := by
  cases value with
  | null => simp [render, write]
  | bool value => cases value <;> simp [render, write]
  | integer number => simp [render, write]
  | float number => simp [render, write]
  | string text => simp [render, write]
  | array items =>
      cases items with
      | nil => simp [render, write]
      | cons item items =>
          rw [render, write, write, write_eq item, write_eq item (writeItems items []),
            writeItems_eq items after]
          simp
  | object fields =>
      cases fields with
      | nil => simp [render, write]
      | cons field fields =>
          rw [render, write, write, write_eq field.2, write_eq field.2 (writeFields fields []),
            writeFields_eq fields after]
          simp

theorem writeItems_eq (items : List Json) (after : List Char) :
    writeItems items after = writeItems items [] ++ after := by
  cases items with
  | nil => simp [writeItems]
  | cons item items =>
      rw [writeItems, writeItems, write_eq item, write_eq item (writeItems items []),
        writeItems_eq items after]
      simp

theorem writeFields_eq (fields : List (String × Json)) (after : List Char) :
    writeFields fields after = writeFields fields [] ++ after := by
  cases fields with
  | nil => simp [writeFields]
  | cons field fields =>
      rw [writeFields, writeFields, write_eq field.2, write_eq field.2 (writeFields fields []),
        writeFields_eq fields after]
      simp

end

theorem render_array_cons (item : Json) (items : List Json) :
    (array (item :: items)).render = '[' :: (item.render ++ writeItems items []) := by
  rw [render, write, write_eq]

theorem writeItems_cons (item : Json) (items : List Json) (after : List Char) :
    writeItems (item :: items) after = ',' :: (item.render ++ writeItems items after) := by
  rw [writeItems, write_eq]

theorem render_object_cons (name : String) (value : Json) (fields : List (String × Json)) :
    (object ((name, value) :: fields)).render =
      '\x7b' :: (quote name ++ ':' :: (value.render ++ writeFields fields [])) := by
  rw [render, write, write_eq]

theorem writeFields_cons (name : String) (value : Json) (fields : List (String × Json))
    (after : List Char) :
    writeFields ((name, value) :: fields) after =
      ',' :: (quote name ++ ':' :: (value.render ++ writeFields fields after)) := by
  rw [writeFields, write_eq]

/-! ## The text is one line -/

/-- Whether no character of a text is a control character below U+0020. -/
def IsVisible (text : List Char) : Prop :=
  ∀ character ∈ text, 0x20 ≤ character.toNat

theorem isVisible_append {first second : List Char} :
    IsVisible (first ++ second) ↔ IsVisible first ∧ IsVisible second :=
  List.forall_mem_append

theorem isVisible_cons {first : Char} {rest : List Char} :
    IsVisible (first :: rest) ↔ 0x20 ≤ first.toNat ∧ IsVisible rest :=
  List.forall_mem_cons

theorem isVisible_writeItems {items : List Json} (visible : ∀ item ∈ items, IsVisible item.render) :
    IsVisible (writeItems items []) := by
  induction items with
  | nil => simp [writeItems, IsVisible]
  | cons item items ih =>
      obtain ⟨first, others⟩ := List.forall_mem_cons.mp visible
      rw [writeItems_cons, isVisible_cons, isVisible_append]
      exact ⟨by decide, first, ih others⟩

theorem isVisible_writeFields {fields : List (String × Json)}
    (visible : ∀ field ∈ fields, IsVisible field.2.render) :
    IsVisible (writeFields fields []) := by
  induction fields with
  | nil => simp [writeFields, IsVisible]
  | cons field fields ih =>
      obtain ⟨first, others⟩ := List.forall_mem_cons.mp visible
      rw [writeFields_cons, isVisible_cons, isVisible_append, isVisible_cons, isVisible_append]
      exact ⟨by decide, fun _ => visible_of_mem_quote, by decide, first, ih others⟩

/-- No string of a value, however deep, puts a raw control character into the text. -/
theorem IsPlain.isVisible_render {value : Json} (plain : IsPlain value) :
    IsVisible value.render := by
  induction plain with
  | null => simp [IsVisible, render, write]
  | bool value => cases value <;> simp [IsVisible, render, write]
  | integer =>
      intro character member
      rw [render, write, List.append_nil, NumberLiteral.text_ofInt, List.mem_append] at member
      rcases member with sign | digit
      · split at sign
        · rw [List.mem_singleton.mp sign]
          decide
        · exact absurd sign List.not_mem_nil
      · have range := Text.toNat_of_mem_decimal digit
        omega
  | string text =>
      rw [render, write, List.append_nil]
      exact fun _ => visible_of_mem_quote
  | @array items plain ih =>
      cases items with
      | nil => simp [IsVisible, render, write]
      | cons item items =>
          obtain ⟨first, others⟩ := List.forall_mem_cons.mp ih
          rw [render_array_cons, isVisible_cons, isVisible_append]
          exact ⟨by decide, first, isVisible_writeItems others⟩
  | @object fields ascending plain ih =>
      cases fields with
      | nil => simp [IsVisible, render, write]
      | cons field fields =>
          obtain ⟨first, others⟩ := List.forall_mem_cons.mp ih
          rw [render_object_cons, isVisible_cons, isVisible_append, isVisible_cons,
            isVisible_append]
          exact ⟨by decide, fun _ => visible_of_mem_quote, by decide, first,
            isVisible_writeFields others⟩

/-! ## The literal is read -/

theorem skipSpace_cons {first : Char} (visible : isSpace first = false) (rest : List Char) :
    skipSpace (first :: rest) = first :: rest :=
  List.dropWhile_cons_of_neg (by simp [visible])

theorem ne_of_number {first other : Char} (number : first = '-' ∨ Text.isDigit first = true)
    (apart : other ≠ '-' ∧ Text.isDigit other = false) : first ≠ other := by
  rintro rfl
  rcases number with minus | digit
  · exact apart.1 minus
  · exact absurd digit (by simp [apart.2])

theorem isSpace_of_number {first : Char} (number : first = '-' ∨ Text.isDigit first = true) :
    isSpace first = false := by
  simp only [isSpace, Bool.or_eq_false_iff, decide_eq_false_iff_not]
  exact ⟨⟨⟨ne_of_number number (by decide), ne_of_number number (by decide)⟩,
    ne_of_number number (by decide)⟩, ne_of_number number (by decide)⟩

/-- The text of a value does not begin with a blank, nor with what closes an array. -/
theorem IsLegible.exists_render_eq_cons {value : Json} (legible : IsLegible value) :
    ∃ first rest, value.render = first :: rest ∧ isSpace first = false ∧ first ≠ ']' := by
  cases legible with
  | null => exact ⟨'n', ['u', 'l', 'l'], rfl, by decide, by decide⟩
  | bool value => cases value <;> exact ⟨_, _, rfl, by decide, by decide⟩
  | integer value =>
      obtain ⟨first, rest, text, number⟩ := NumberLiteral.exists_text_ofInt_eq_cons value
      rw [render, write, List.append_nil]
      exact ⟨first, rest, text, isSpace_of_number number, ne_of_number number (by decide)⟩
  | string text => exact ⟨_, _, rfl, by decide, by decide⟩
  | @array items => cases items <;> exact ⟨_, _, rfl, by decide, by decide⟩
  | @object fields => cases fields <;> exact ⟨_, _, rfl, by decide, by decide⟩

/-- The value is read from its text whatever stands after it. -/
def IsRead (value : Json) : Prop :=
  ∀ {steps : Nat} {after : List Char}, EndsNumber after →
    2 * (value.render ++ after).length ≤ steps →
    readLiteral steps (value.render ++ after) = some (.ofValue value, after)

theorem readItems_render {item : Json} {items : List Json}
    (reads : ∀ value ∈ item :: items, IsRead value) {steps : Nat} {after : List Char}
    (enough : 2 * (item.render ++ writeItems items after).length < steps) :
    readItems steps (item.render ++ writeItems items after) =
      some (Literal.ofItems (item :: items), after) := by
  obtain ⟨steps, rfl⟩ := Nat.exists_eq_add_of_lt (Nat.zero_lt_of_lt enough)
  rw [Nat.zero_add] at enough ⊢
  have first : IsRead item := reads item List.mem_cons_self
  induction items generalizing item steps with
  | nil =>
      rw [writeItems] at enough ⊢
      rw [readItems, first (endsNumber_cons after (by simp)) (by omega)]
      simp [skipSpace_cons, isSpace, Literal.ofItems]
  | cons next items ih =>
      rw [writeItems_cons] at enough ⊢
      rw [readItems, first (endsNumber_cons _ (by simp)) (by omega)]
      simp only [List.length_append, List.length_cons] at enough
      obtain ⟨steps, rfl⟩ := Nat.exists_eq_add_of_lt (show 0 < steps by omega)
      have later := ih (fun value member => reads value (List.mem_cons_of_mem _ member)) steps
        (by simp only [List.length_append]; omega) (reads next (by simp))
      simp only [Nat.zero_add] at later ⊢
      simp [skipSpace_cons, isSpace, later, Literal.ofItems]

theorem readFields_quote (steps : Nat) (name : String) (rest : List Char) :
    readFields (steps + 1) (quote name ++ ':' :: rest) =
      (readLiteral steps rest).bind fun (field, rest) =>
        match skipSpace rest with
        | '\x7d' :: rest => some ([(some name, field)], rest)
        | ',' :: rest =>
          (readFields steps rest).map fun (fields, rest) => ((some name, field) :: fields, rest)
        | _ => none := by
  simp only [readFields, quote, List.cons_append, List.append_assoc, List.nil_append,
    skipSpace_cons (show isSpace '\x22' = false by decide),
    skipSpace_cons (show isSpace ':' = false by decide), readString_quoted]
  cases readLiteral steps rest <;> rfl

theorem readFields_render {name : String} {value : Json} {fields : List (String × Json)}
    (reads : ∀ field ∈ (name, value) :: fields, IsRead field.2) {steps : Nat} {after : List Char}
    (enough : 2 * (quote name ++ ':' :: (value.render ++ writeFields fields after)).length
      < steps) :
    readFields steps (quote name ++ ':' :: (value.render ++ writeFields fields after)) =
      some (Literal.ofFields ((name, value) :: fields), after) := by
  obtain ⟨steps, rfl⟩ := Nat.exists_eq_add_of_lt (Nat.zero_lt_of_lt enough)
  rw [Nat.zero_add] at enough ⊢
  have first : IsRead value := reads (name, value) List.mem_cons_self
  simp only [List.length_append, List.length_cons] at enough
  rw [readFields_quote]
  induction fields generalizing name value steps with
  | nil =>
      rw [writeFields] at enough ⊢
      rw [first (endsNumber_cons after (by simp)) (by simp only [List.length_append]; omega)]
      simp [skipSpace_cons, isSpace, Literal.ofFields]
  | cons next fields ih =>
      obtain ⟨other, present⟩ := next
      rw [writeFields_cons] at enough ⊢
      rw [first (endsNumber_cons _ (by simp)) (by simp only [List.length_append]; omega)]
      simp only [List.length_append, List.length_cons] at enough
      obtain ⟨steps, rfl⟩ := Nat.exists_eq_add_of_lt (show 0 < steps by omega)
      have later := ih (fun field member => reads field (List.mem_cons_of_mem _ member)) steps
        (reads (other, present) (by simp)) (by omega)
      rw [← readFields_quote] at later
      simp only [Nat.zero_add, Option.bind_some]
      simp [skipSpace_cons, isSpace, later, Literal.ofFields]

theorem isRead_of_succ {value : Json} (legible : IsLegible value)
    (reads : ∀ steps after, EndsNumber after → 2 * (value.render ++ after).length ≤ steps + 1 →
      readLiteral (steps + 1) (value.render ++ after) = some (.ofValue value, after)) :
    IsRead value := by
  intro steps after ends enough
  obtain ⟨first, rest, text, -⟩ := legible.exists_render_eq_cons
  cases steps with
  | zero => simp [text] at enough
  | succ steps => exact reads steps after ends enough

theorem readLiteral_quote (steps : Nat) (text : String) (rest : List Char) :
    readLiteral (steps + 1) (quote text ++ rest) = some (.string (some text), rest) := by
  simp [readLiteral, quote, skipSpace_cons, isSpace, readString_quoted]

theorem readLiteral_number (steps : Nat) {first : Char}
    (number : first = '-' ∨ Text.isDigit first = true) (rest : List Char) :
    readLiteral (steps + 1) (first :: rest) =
      (readNumber (first :: rest)).map fun (digits, rest) => (.number digits, rest) := by
  rw [readLiteral, skipSpace_cons (isSpace_of_number number)]
  split
  case h_7 => rfl
  all_goals
    rename_i same
    exact absurd (List.cons.inj same).1 (ne_of_number number (by decide))

theorem readLiteral_ofInt (steps : Nat) (value : Int) {after : List Char}
    (ends : EndsNumber after) :
    readLiteral (steps + 1) ((NumberLiteral.ofInt value).text ++ after) =
      some (.number (.ofInt value), after) := by
  obtain ⟨first, rest, text, number⟩ := NumberLiteral.exists_text_ofInt_eq_cons value
  have read := readNumber_ofInt value ends
  rw [text, List.cons_append] at read ⊢
  rw [readLiteral_number steps number, read, Option.map_some]

theorem readLiteral_array (steps : Nat) {first : Char} (visible : isSpace first = false)
    (inside : first ≠ ']') (rest : List Char) :
    readLiteral (steps + 1) ('[' :: first :: rest) =
      (readItems steps (first :: rest)).map fun (items, rest) => (.array items, rest) := by
  rw [readLiteral, skipSpace_cons (by decide)]
  simp only [skipSpace_cons visible]
  split
  · rename_i same
    exact absurd (List.cons.inj same).1 inside
  · rfl

theorem readLiteral_object (steps : Nat) (name : String) (rest : List Char) :
    readLiteral (steps + 1) ('\x7b' :: (quote name ++ rest)) =
      (readFields steps (quote name ++ rest)).map fun (fields, rest) => (.object fields, rest) := by
  simp [readLiteral, quote, skipSpace_cons, isSpace]

/-- Reading gives the literal of the value that was written, and what follows it. -/
theorem IsLegible.isRead {value : Json} (legible : IsLegible value) : IsRead value := by
  induction legible with
  | null =>
      refine isRead_of_succ .null fun steps after ends enough => ?_
      simp [render, write, readLiteral, skipSpace_cons, isSpace, Literal.ofValue]
  | bool value =>
      refine isRead_of_succ (.bool value) fun steps after ends enough => ?_
      cases value <;> simp [render, write, readLiteral, skipSpace_cons, isSpace, Literal.ofValue]
  | integer value =>
      refine isRead_of_succ (.integer value) fun steps after ends enough => ?_
      rw [render, write, List.append_nil, readLiteral_ofInt steps value ends, Literal.ofValue]
  | string text =>
      refine isRead_of_succ (.string text) fun steps after ends enough => ?_
      rw [render, write, List.append_nil, readLiteral_quote, Literal.ofValue]
  | @array items legible ih =>
      refine isRead_of_succ (.array legible) fun steps after ends enough => ?_
      cases items with
      | nil =>
          simp [render, write, readLiteral, skipSpace_cons, isSpace, Literal.ofValue,
            Literal.ofItems]
      | cons item items =>
          obtain ⟨first, rest, text, visible, inside⟩ :=
            (legible item List.mem_cons_self).exists_render_eq_cons
          rw [render_array_cons, List.cons_append, List.append_assoc, ← writeItems_eq] at enough ⊢
          rw [List.length_cons] at enough
          -- The bracket has used up a step, and two steps for each character are left.
          have read := readItems_render ih (show 2 * (item.render ++ writeItems items after).length
            < steps by omega)
          rw [text, List.cons_append] at read ⊢
          rw [readLiteral_array steps visible inside, read, Option.map_some, Literal.ofValue]
  | @object fields legible ih =>
      refine isRead_of_succ (.object legible) fun steps after ends enough => ?_
      cases fields with
      | nil =>
          simp [render, write, readLiteral, skipSpace_cons, isSpace, Literal.ofValue,
            Literal.ofFields]
      | cons field fields =>
          have text : (Json.object (field :: fields)).render ++ after = '\x7b' ::
              (quote field.1 ++ ':' :: (field.2.render ++ writeFields fields after)) := by
            rw [render_object_cons, writeFields_eq fields after]
            simp
          rw [text, List.length_cons] at enough
          rw [text, readLiteral_object, readFields_render ih (by omega), Option.map_some,
            Literal.ofValue]

end Json
end LearningIndex
