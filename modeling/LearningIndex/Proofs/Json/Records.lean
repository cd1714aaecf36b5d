import Mathlib.Data.List.Forall2
import Mathlib.Data.List.Nodup
import LearningIndex.Json.Record
import LearningIndex.Proofs.Json.RoundTrip

/-!
# Records among other fields

A record finds its fields wherever they stand in an object and whatever unknown fields stand between
them, as long as the names of the unknown fields have a text.  What stands in a field is read back
from the literal of its value.
-/

namespace LearningIndex
namespace Literal

/-- The fields of an object with the names they are known by. -/
def named (fields : List (String × Literal)) : List (Option String × Literal) :=
  fields.map fun (name, field) => (some name, field)

theorem ofFields_eq (fields : List (String × Json)) :
    ofFields fields = named (fields.map fun (name, value) => (name, ofValue value)) := by
  induction fields with
  | nil => rfl
  | cons field fields ih =>
      rw [ofFields, ih]
      rfl

theorem exists_of_mem_ofFields {fields : List (String × Json)} {field : Option String × Literal}
    (member : field ∈ ofFields fields) : ∃ own ∈ fields, field = (some own.1, ofValue own.2) := by
  rw [ofFields_eq, named, List.map_map] at member
  obtain ⟨own, inside, rfl⟩ := List.mem_map.mp member
  exact ⟨own, inside, rfl⟩

theorem ofItems_eq (items : List Json) : ofItems items = items.map ofValue := by
  induction items with
  | nil => rfl
  | cons item items ih => rw [ofItems, ih, List.map_cons]

/-! ## What stands in a field -/

theorem signed64?_ofValue {value : Int} (fits : Json.isSigned64 value = true) :
    signed64? (ofValue (.integer value)) = some value := by
  have range := fits
  simp only [Json.isSigned64, Bool.and_eq_true, decide_eq_true_eq] at range
  rw [ofValue, signed64?, NumberLiteral.integer?_ofInt range.1 (by omega), Option.bind_some,
    if_pos fits]

theorem signed32?_ofValue {value : Int} (fits : -0x80000000 ≤ value ∧ value < 0x80000000) :
    signed32? (ofValue (.integer value)) = some value := by
  rw [ofValue, signed32?, NumberLiteral.integer?_ofInt (by omega) (by omega), Option.bind_some,
    if_pos fits]

theorem optional?_ofValue (text : Option String) :
    optional? string? (ofValue (.optionalString text)) = some text := by
  cases text <;> rfl

theorem list?_of_forall₂ {α : Type} {read : Literal → Option α} {IsItem : α → Json → Prop}
    {items : List α} {values : List Json} (each : List.Forall₂ IsItem items values)
    (reads : ∀ item ∈ items, ∀ value, IsItem item value → read (ofValue value) = some item) :
    list? read (ofValue (.array values)) = some items := by
  rw [ofValue, list?, ofItems_eq]
  induction each with
  | nil => rfl
  | cons first _ ih =>
      obtain ⟨reads_first, reads_others⟩ := List.forall_mem_cons.mp reads
      rw [List.map_cons, List.mapM_cons, reads_first _ first, ih reads_others]
      rfl

theorem list?_ofValue {α : Type} {read : Literal → Option α} {write : α → Json} {values : List α}
    (reads : ∀ value ∈ values, read (ofValue (write value)) = some value) :
    list? read (ofValue (.array (values.map write))) = some values := by
  have each : List.Forall₂ (fun value json => json = write value) values (values.map write) :=
    List.forall₂_map_right_iff.mpr (List.forall₂_same.mpr fun _ _ => rfl)
  exact list?_of_forall₂ each fun value member _ same => same ▸ reads value member

theorem list?_integers {values : List Int} (fits : ∀ value ∈ values, Json.isSigned64 value = true) :
    list? signed64? (ofValue (.integers values)) = some values :=
  list?_ofValue fun value member => signed64?_ofValue (fits value member)

theorem list?_strings (texts : List String) :
    list? string? (ofValue (.strings texts)) = some texts :=
  list?_ofValue fun _ _ => rfl

/-! ## The fields of a record -/

/-- A field of an object, if it is declared. -/
def declared? (names : List String) : Option String × Literal → Option (String × Literal)
  | (some name, field) => if names.contains name then some (name, field) else none
  | (none, _) => none

theorem declaredFields_eq {names : List String} {fields : List (Option String × Literal)}
    (texts : ∀ field ∈ fields, field.1.isSome = true)
    (once : ((fields.filterMap (declared? names)).map (·.1)).Nodup) :
    declaredFields names fields = some (fields.filterMap (declared? names)) := by
  induction fields with
  | nil => rfl
  | cons field fields ih =>
      obtain ⟨name, literal⟩ := field
      obtain ⟨text, later⟩ := List.forall_mem_cons.mp texts
      obtain ⟨name, rfl⟩ := Option.isSome_iff_exists.mp text
      by_cases known : name ∈ names
      · have head : declared? names (some name, literal) = some (name, literal) :=
          if_pos (List.contains_iff_mem.mpr known)
        rw [List.filterMap_cons_some head, List.map_cons, List.nodup_cons] at once
        obtain ⟨absent, once⟩ := once
        simp only [declaredFields, ih later once, List.filterMap_cons_some head,
          List.contains_iff_mem.mpr known, if_true]
        refine if_neg fun repeated => absent ?_
        obtain ⟨other, member, same⟩ := List.any_eq_true.mp repeated
        exact List.mem_map.mpr ⟨other, member, beq_iff_eq.mp same⟩
      · have head : declared? names (some name, literal) = none :=
          if_neg (fun contained => known (List.contains_iff_mem.mp contained))
        rw [List.filterMap_cons_none head] at once ⊢
        simp [declaredFields, ih later once, known]

theorem lookup_of_mem {fields : List (String × Literal)} {name : String} {literal : Literal}
    (distinct : (fields.map (·.1)).Nodup) (member : (name, literal) ∈ fields) :
    fields.lookup name = some literal := by
  induction fields with
  | nil => exact absurd member List.not_mem_nil
  | cons first fields ih =>
      obtain ⟨absent, later⟩ := List.nodup_cons.mp distinct
      rcases List.mem_cons.mp member with rfl | inside
      · exact List.lookup_cons_self
      · have apart : (name == first.1) = false := beq_eq_false_iff_ne.mpr fun same =>
          absent (List.mem_map.mpr ⟨(name, literal), inside, same⟩)
        rw [List.lookup_cons, apart]
        exact ih later inside

theorem filterMap_declared?_named {names : List String} {own : List (String × Literal)}
    (known : ∀ field ∈ own, field.1 ∈ names) :
    (named own).filterMap (declared? names) = own := by
  rw [named, List.filterMap_map]
  refine (List.filterMap_congr fun field member => ?_).trans List.filterMap_some
  exact if_pos (List.contains_iff_mem.mpr (known field member))

/-- An object of declared fields with different names is the record of these fields. -/
theorem record?_named {names : List String} {own : List (String × Literal)}
    (distinct : (own.map (·.1)).Nodup) (known : ∀ field ∈ own, field.1 ∈ names) :
    record? names (object (named own)) = some ⟨own⟩ := by
  have all := filterMap_declared?_named known
  have texts : ∀ field ∈ named own, field.1.isSome = true := by
    intro field member
    obtain ⟨_, -, rfl⟩ := List.mem_map.mp member
    rfl
  rw [record?, declaredFields_eq texts (by rwa [all]), all, Option.map_some]

theorem exists_record {own : List (String × Literal)}
    {fields unknown : List (Option String × Literal)} (distinct : (own.map (·.1)).Nodup)
    (perm : fields.Perm (named own ++ unknown))
    (texts : ∀ field ∈ unknown, field.1.isSome = true)
    (apart : ∀ field ∈ unknown, ∀ name ∈ own.map (·.1), field.1 ≠ some name) :
    ∃ record, record? (own.map (·.1)) (object fields) = some record ∧
      ∀ field ∈ own, record.find? field.1 = some field.2 := by
  have known : (named own).filterMap (declared? (own.map (·.1))) = own :=
    filterMap_declared?_named fun _ => List.mem_map_of_mem
  have strange : unknown.filterMap (declared? (own.map (·.1))) = [] := by
    refine List.filterMap_eq_nil_iff.mpr fun field member => ?_
    obtain ⟨name, text⟩ := Option.isSome_iff_exists.mp (texts field member)
    obtain ⟨_, literal⟩ := field
    subst text
    exact if_neg fun contained =>
      apart _ member name (List.contains_iff_mem.mp contained) rfl
  have found := perm.filterMap (declared? (own.map (·.1)))
  rw [List.filterMap_append, known, strange, List.append_nil] at found
  have once := (found.map (·.1)).nodup_iff.mpr distinct
  have texts' : ∀ field ∈ fields, field.1.isSome = true := by
    intro field member
    rcases List.mem_append.mp (perm.subset member) with mine | other
    · obtain ⟨field, -, rfl⟩ := List.mem_map.mp mine
      rfl
    · exact texts field other
  refine ⟨⟨_⟩, by rw [record?, declaredFields_eq texts' once, Option.map_some], ?_⟩
  exact fun field member => lookup_of_mem once (found.symm.subset member)

end Literal
end LearningIndex
