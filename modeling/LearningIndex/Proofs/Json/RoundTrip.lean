import Mathlib.Data.List.Induction
import LearningIndex.Proofs.Json.Reading

/-!
# Writing and reading JSON

A value without floating point numbers comes back from its compact text as it was written, for any
limit of the nesting that the value keeps.  So two such values with the same text are equal.
-/

namespace LearningIndex

namespace Fields

theorem insert_of_forall_lt {name : String} {fields : Fields}
    (before : ∀ field ∈ fields, field.1 < name) (value : Json) :
    insert name value fields = fields ++ [(name, value)] := by
  induction fields with
  | nil => rfl
  | cons field fields ih =>
      obtain ⟨first, others⟩ := List.forall_mem_cons.mp before
      have apart : name ≠ field.1 := fun same => String.lt_irrefl _ (same ▸ first)
      rw [insert, if_neg apart, if_neg (String.lt_asymm first), ih others, List.cons_append]

theorem mem_of_mem_insert {name : String} {value : Json} {fields : Fields} {field : String × Json}
    (member : field ∈ insert name value fields) : field = (name, value) ∨ field ∈ fields := by
  induction fields with
  | nil => exact .inl (List.mem_singleton.mp member)
  | cons first fields ih =>
      rw [insert] at member
      split_ifs at member with same before
      · exact (List.mem_cons.mp member).imp_right (List.mem_cons_of_mem _)
      · exact List.mem_cons.mp member
      · rcases List.mem_cons.mp member with rfl | later
        · exact .inr List.mem_cons_self
        · exact (ih later).imp_right (List.mem_cons_of_mem _)

theorem ascending_insert {name : String} {fields : Fields} (value : Json)
    (ascending : fields.Pairwise (·.1 < ·.1)) :
    (insert name value fields).Pairwise (·.1 < ·.1) := by
  induction fields with
  | nil => exact List.pairwise_singleton _ _
  | cons first fields ih =>
      obtain ⟨least, rest⟩ := List.pairwise_cons.mp ascending
      rw [insert]
      split_ifs with same before
      · exact List.pairwise_cons.mpr ⟨fun field member => same ▸ least field member, rest⟩
      · refine List.pairwise_cons.mpr ⟨List.forall_mem_cons.mpr ⟨before, ?_⟩, ascending⟩
        exact fun field member => String.lt_trans before (least field member)
      · refine List.pairwise_cons.mpr ⟨fun field member => ?_, ih rest⟩
        rcases mem_of_mem_insert member with rfl | later
        · exact Std.lt_of_le_of_ne (Std.not_lt.mp before) (Ne.symm same)
        · exact least field later

theorem insert_perm {name : String} {fields : Fields} (absent : name ∉ fields.map (·.1))
    (value : Json) : (insert name value fields).Perm ((name, value) :: fields) := by
  induction fields with
  | nil => exact .refl _
  | cons first fields ih =>
      obtain ⟨apart, later⟩ := not_or.mp (List.mem_cons.not.mp absent)
      rw [insert, if_neg apart]
      split_ifs
      · exact .refl _
      · exact ((ih later).cons first).trans (.swap _ _ _)

theorem ofList_concat (pairs : List (String × Json)) (field : String × Json) :
    ofList (pairs ++ [field]) = insert field.1 field.2 (ofList pairs) := by
  rw [ofList, List.foldl_append]
  rfl

theorem ascending_ofList (pairs : List (String × Json)) :
    (ofList pairs).Pairwise (·.1 < ·.1) := by
  induction pairs using List.reverseRecOn with
  | nil => exact .nil
  | append_singleton pairs field ih =>
      rw [ofList_concat]
      exact ascending_insert field.2 ih

theorem mem_of_mem_ofList {pairs : List (String × Json)} {field : String × Json}
    (member : field ∈ ofList pairs) : field ∈ pairs := by
  induction pairs using List.reverseRecOn with
  | nil => exact member
  | append_singleton pairs last ih =>
      rw [ofList_concat] at member
      rcases mem_of_mem_insert member with rfl | earlier
      · simp
      · exact List.mem_append_left _ (ih earlier)

/-- Fields with different names are listed in another order, and no field is lost. -/
theorem ofList_perm {pairs : List (String × Json)} (distinct : (pairs.map (·.1)).Nodup) :
    (ofList pairs).Perm pairs := by
  induction pairs using List.reverseRecOn with
  | nil => exact .refl _
  | append_singleton pairs field ih =>
      rw [List.map_append, List.nodup_append] at distinct
      obtain ⟨earlier, -, apart⟩ := distinct
      have perm := ih earlier
      rw [ofList_concat]
      have absent : field.1 ∉ (ofList pairs).map (·.1) := fun member =>
        apart _ ((perm.map _).subset member) field.1 (by simp) rfl
      exact (insert_perm absent field.2).trans
        ((perm.cons field).trans (List.perm_append_singleton field pairs).symm)

/-- Setting fields with ascending names one after the other lists them as they come. -/
theorem ofList_of_ascending {fields : Fields} (ascending : fields.Pairwise (·.1 < ·.1)) :
    ofList fields = fields := by
  induction fields using List.reverseRecOn with
  | nil => rfl
  | append_singleton fields field ih =>
      obtain ⟨earlier, -, before⟩ := List.pairwise_append.mp ascending
      rw [ofList_concat, ih earlier, insert_of_forall_lt]
      exact fun other member => before other member field List.mem_cons_self

end Fields

namespace Json

mutual

/-- The number of containers that stand inside one another in a value. -/
def depth (value : Json) : Nat :=
  match value with
  | array items => itemsDepth items + 1
  | object fields => fieldsDepth fields + 1
  | _ => 0

def itemsDepth (items : List Json) : Nat :=
  match items with
  | [] => 0
  | item :: items => max (depth item) (itemsDepth items)

def fieldsDepth (fields : List (String × Json)) : Nat :=
  match fields with
  | [] => 0
  | (_, value) :: fields => max (depth value) (fieldsDepth fields)

end

theorem itemsDepth_le_iff {items : List Json} {limit : Nat} :
    itemsDepth items ≤ limit ↔ ∀ item ∈ items, item.depth ≤ limit := by
  induction items with
  | nil => simp [itemsDepth]
  | cons first items ih => rw [itemsDepth, Nat.max_le, ih, List.forall_mem_cons]

theorem fieldsDepth_le_iff {fields : List (String × Json)} {limit : Nat} :
    fieldsDepth fields ≤ limit ↔ ∀ field ∈ fields, field.2.depth ≤ limit := by
  induction fields with
  | nil => simp [fieldsDepth]
  | cons first fields ih => rw [fieldsDepth, Nat.max_le, ih, List.forall_mem_cons]

/-- The value that a text consists of, if it is not nested deeper than a limit; `value?` is the case
of the limit `Literal.depthLimit`. -/
def readWithin? (limit : Nat) (text : List Char) : Option Json :=
  (literal? text).bind (Literal.valueWithin? limit)

end Json

namespace Literal

theorem itemsWithin?_ofItems {limit : Nat} {items : List Json}
    (means : ∀ item ∈ items, (ofValue item).valueWithin? limit = some item) :
    itemsWithin? limit (ofItems items) = some items := by
  induction items with
  | nil => rfl
  | cons item items ih =>
      obtain ⟨first, others⟩ := List.forall_mem_cons.mp means
      rw [ofItems, itemsWithin?, first, ih others]

theorem fieldsWithin?_ofFields {limit : Nat} {fields : List (String × Json)}
    (means : ∀ field ∈ fields, (ofValue field.2).valueWithin? limit = some field.2) :
    fieldsWithin? limit (ofFields fields) = some fields := by
  induction fields with
  | nil => rfl
  | cons field fields ih =>
      obtain ⟨first, others⟩ := List.forall_mem_cons.mp means
      simp [ofFields, fieldsWithin?, first, ih others]

theorem valueWithin?_ofValue {value : Json} (plain : value.IsPlain) {limit : Nat}
    (shallow : value.depth ≤ limit) : (ofValue value).valueWithin? limit = some value := by
  induction plain generalizing limit with
  | null => rfl
  | bool value => rfl
  | integer least most =>
      rw [ofValue, valueWithin?, NumberLiteral.value?, NumberLiteral.integer?_ofInt least most]
  | string text => rfl
  | array plain ih =>
      rw [Json.depth] at shallow
      have shallows := Json.itemsDepth_le_iff.mp (Nat.le_sub_one_of_lt shallow)
      have inside := itemsWithin?_ofItems fun item member => ih item member (shallows item member)
      rw [ofValue, valueWithin?, if_neg (by omega), inside, Option.map_some]
  | object ascending plain ih =>
      rw [Json.depth] at shallow
      have shallows := Json.fieldsDepth_le_iff.mp (Nat.le_sub_one_of_lt shallow)
      have inside := fieldsWithin?_ofFields fun field member =>
        ih field member (shallows field member)
      rw [ofValue, valueWithin?, if_neg (by omega), inside, Option.map_some, Json.ofFields,
        Fields.ofList_of_ascending ascending]

end Literal

namespace Json

/-- An object that is made of named values lists them by ascending name. -/
theorem isPlain_ofFields {pairs : List (String × Json)} (plain : ∀ field ∈ pairs, IsPlain field.2) :
    IsPlain (ofFields pairs) :=
  .object (Fields.ascending_ofList pairs) fun field member =>
    plain field (Fields.mem_of_mem_ofList member)

/-- The compact text of a value consists of the literal of the value. -/
theorem IsLegible.literal?_render {value : Json} (legible : value.IsLegible) :
    literal? value.render = some (.ofValue value) := by
  have read : readLiteral (2 * value.render.length + 2) (value.render ++ []) = _ :=
    legible.isRead endsNumber_nil (by simp)
  rw [List.append_nil] at read
  rw [literal?, read]
  rfl

/-- A value that keeps a limit of nesting is read from its compact text. -/
theorem IsPlain.readWithin?_render {value : Json} (plain : value.IsPlain) {limit : Nat}
    (shallow : value.depth ≤ limit) : readWithin? limit value.render = some value := by
  rw [readWithin?, plain.isLegible.literal?_render, Option.bind_some,
    Literal.valueWithin?_ofValue plain shallow]

end Json
end LearningIndex
