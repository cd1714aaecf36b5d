import LearningIndex.Entity.Document
import Mathlib.Data.List.Basic

/-!
# Fields of documents

Setting a field changes the value of that field and of no other.  The time of ingestion is the one
field whose value depends on when a document is written; the other fields are the lasting ones.
-/

namespace LearningIndex
namespace Fields

theorem get?_insert (name other : String) (value : Json) (fields : Fields) :
    get? name (insert other value fields) =
      if name = other then some value else get? name fields := by
  induction fields with
  | nil => simp [insert, get?]
  | cons field rest ih =>
      obtain ⟨first, present⟩ := field
      rw [insert]
      split_ifs with same before asked <;> simp_all [get?]

@[simp]
theorem get?_insert_self (name : String) (value : Json) (fields : Fields) :
    get? name (insert name value fields) = some value := by
  simp [get?_insert]

def timeField : String := "ingestTime"

/-- The fields without the time of ingestion. -/
def lasting (fields : Fields) : Fields :=
  fields.filter fun field => field.1 ≠ timeField

theorem lasting_cons (name : String) (value : Json) (rest : Fields) :
    lasting ((name, value) :: rest) =
      if name = timeField then rest.lasting else (name, value) :: rest.lasting := by
  simp [lasting, List.filter_cons]

theorem get?_lasting {name : String} (apart : name ≠ timeField) (fields : Fields) :
    get? name fields.lasting = get? name fields := by
  induction fields with
  | nil => rfl
  | cons field rest ih =>
      obtain ⟨first, value⟩ := field
      rw [lasting_cons]
      split
      · rename_i time
        rw [ih, get?, if_neg (time ▸ apart)]
      · rw [get?, get?, ih]

/-- Two lists of fields that differ in the time of ingestion only have the other fields in
common. -/
theorem get?_eq_of_lasting_eq {name : String} (apart : name ≠ timeField) {first second : Fields}
    (same : first.lasting = second.lasting) : get? name first = get? name second := by
  rw [← get?_lasting apart, same, get?_lasting apart]

@[simp]
theorem lasting_insert_time (value : Json) (fields : Fields) :
    (insert timeField value fields).lasting = fields.lasting := by
  induction fields with
  | nil => simp [insert, lasting]
  | cons field rest ih =>
      obtain ⟨first, present⟩ := field
      rw [insert]
      split_ifs with same before
      · rw [lasting_cons, lasting_cons, if_pos rfl, if_pos same.symm]
      · rw [lasting_cons, if_pos rfl]
      · rw [lasting_cons, lasting_cons, ih]

end Fields

namespace Document

theorem integer_unique {document : Document} {field : String} {first second : Int}
    (shown : document.get? field = some (.integer first))
    (shown' : document.get? field = some (.integer second)) : first = second :=
  Json.integer.inj (Option.some.inj (shown.symm.trans shown'))

theorem string_unique {document : Document} {field first second : String}
    (shown : document.get? field = some (.string first))
    (shown' : document.get? field = some (.string second)) : first = second :=
  Json.string.inj (Option.some.inj (shown.symm.trans shown'))

@[simp]
theorem id_set (document : Document) (name : String) (value : Json) :
    (document.set name value).id = document.id := rfl

theorem get?_set (document : Document) (name other : String) (value : Json) :
    (document.set other value).get? name =
      if name = other then some value else document.get? name :=
  Fields.get?_insert name other value document.source

@[simp]
theorem setAll_nil (document : Document) : document.setAll [] = document := rfl

@[simp]
theorem setAll_cons (document : Document) (name : String) (value : Json)
    (fields : List (String × Json)) :
    document.setAll ((name, value) :: fields) = (document.set name value).setAll fields := rfl

@[simp]
theorem id_setAll (document : Document) (fields : List (String × Json)) :
    (document.setAll fields).id = document.id := by
  induction fields generalizing document with
  | nil => rfl
  | cons field rest ih => exact ih _

theorem get?_setAll_of_notMem {name : String} {fields : List (String × Json)}
    (absent : name ∉ fields.map (·.1)) (document : Document) :
    (document.setAll fields).get? name = document.get? name := by
  induction fields generalizing document with
  | nil => rfl
  | cons field rest ih =>
      obtain ⟨apart, later⟩ := not_or.mp (List.mem_cons.not.mp absent)
      rw [setAll_cons, ih later, get?_set, if_neg apart]

theorem get?_setAll_of_mem {name : String} {value : Json} {fields : List (String × Json)}
    (once : (fields.map (·.1)).Nodup) (member : (name, value) ∈ fields) (document : Document) :
    (document.setAll fields).get? name = some value := by
  induction fields generalizing document with
  | nil => simp at member
  | cons field rest ih =>
      obtain ⟨absent, later⟩ := List.nodup_cons.mp once
      rcases List.mem_cons.mp member with rfl | member
      · rw [setAll_cons, get?_setAll_of_notMem absent, get?_set, if_pos rfl]
      · exact ih later member _

@[simp]
theorem id_new (id : String) : (Document.new id).id = id := rfl

@[simp]
theorem get?_new (id : String) : (Document.new id).get? idField = some (.string id) := by
  simp [Document.get?, Document.new, Fields.ofList]

end Document
end LearningIndex
