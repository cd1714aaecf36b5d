import LearningIndex.Indexing.LearningMaterials
import LearningIndex.Proofs.Program.Trace
import LearningIndex.Storage.Content

/-!
# Paths below a root

A path is refused, before anything is read, exactly if it begins with a slash or has a double dot
between its slashes.  Any other path is read below the root: the steps to the root come first, then
the steps of the path, and none of these leads up.  Behind the name of a directory a slash in front
of a path is one slash too many and no beginning at the top, so only a double dot is refused there.
-/

namespace LearningIndex
namespace Storage

open LearningMaterialIndexer (textPath)

/-! ## Components -/

theorem segments_eq_splitOn (text : List Char) : segments text = text.splitOn '/' := by
  induction text using segments.induct with
  | case1 => simp [segments]
  | case2 rest ih => simp [segments, ih, List.splitOn_cons_eq_if_modifyHead]
  | case3 character rest other nothing ih => simp [ih, List.splitOn_ne_nil] at nothing
  | case4 character rest other first others parts ih =>
      have different : ¬ (character == '/') = true := by simpa using other
      rw [List.splitOn_cons_eq_if_modifyHead, if_neg different, ← ih, parts, segments, parts]
      · rfl
      · exact other

/-- Whether a path begins with a slash, or has a double dot between its slashes. -/
def Escapes (path : String) : Prop :=
  path.toList.head? = some '/' ∨ ['.', '.'] ∈ path.toList.splitOn '/'

/-- A segment leads upwards exactly if it is a double dot; three dots are a name. -/
theorem isConfined_ofSegment?_iff {segment : List Char} :
    (∀ component, Component.ofSegment? segment = some component → component.isConfined = true) ↔
      segment ≠ ['.', '.'] := by
  unfold Component.ofSegment?
  split_ifs with here climbs
  · have other : segment ≠ ['.', '.'] := by
      rintro rfl
      exact absurd here (by decide)
    simpa using other
  · simpa [Component.isConfined] using climbs
  · simpa [Component.isConfined] using climbs

/-- No component of a path leads to the top or upwards exactly if the path does not escape. -/
theorem isConfined_iff (path : String) : isConfined path = true ↔ ¬ Escapes path := by
  have inner : ((segments path.toList).filterMap Component.ofSegment?).all Component.isConfined =
      true ↔ ['.', '.'] ∉ path.toList.splitOn '/' := by
    rw [segments_eq_splitOn, List.all_eq_true]
    simp only [List.mem_filterMap, forall_exists_index, and_imp]
    constructor
    · intro confined climbs
      exact isConfined_ofSegment?_iff.mp (fun component found => confined _ _ climbs found) rfl
    · intro level component segment member found
      exact isConfined_ofSegment?_iff.mpr (fun same => level (same ▸ member)) component found
  have front : isAbsolute path = true ↔ path.toList.head? = some '/' := beq_iff_eq
  rw [isConfined, components, Escapes, ← front, not_or, ← inner, List.all_append, Bool.and_eq_true]
  refine and_congr ?_ Iff.rfl
  split_ifs with absolute here
  · simp [Component.isConfined, absolute]
  · simp [Component.isConfined, absolute]
  · simp [absolute]

theorem isAbsolute_of_not_escapes {path : String} (stays : ¬ Escapes path) :
    isAbsolute path = false :=
  beq_eq_false_iff_ne.mpr fun absolute => stays (.inl absolute)

/-! ## Steps -/

theorem steps_of_toList_eq {whole first second : String}
    (parts : whole.toList = first.toList ++ '/' :: second.toList) :
    steps whole = steps first ++ steps second := by
  simp only [steps, segments_eq_splitOn, parts, List.splitOn_append_cons_self, List.filter_append,
    List.map_append]

theorem notMem_steps {path : String} (level : ['.', '.'] ∉ path.toList.splitOn '/') :
    ".." ∉ steps path := by
  intro climbs
  obtain ⟨segment, member, same⟩ := List.mem_map.mp climbs
  obtain rfl : segment = ['.', '.'] := String.ofList_injective same
  exact level (segments_eq_splitOn _ ▸ (List.mem_filter.mp member).1)

/-- What is below a directory is found by the steps to the directory and then those of the path. -/
theorem steps_join {directory path : String} (relative : isAbsolute path = false) :
    steps (join directory path) = steps directory ++ steps path := by
  rw [join, if_neg (by simp [relative])]
  split_ifs with ended
  · rcases Bool.or_eq_true_iff.mp ended with empty | slash
    · obtain rfl : directory = "" := String.isEmpty_iff.mp empty
      simp [steps, segments, isHere]
    · -- The slash at the end of the directory is the one between the steps.
      obtain ⟨front, split⟩ := List.getLast?_eq_some_iff.mp (beq_iff_eq.mp slash)
      have trailing : steps directory = steps (String.ofList front) ++ steps "" :=
        steps_of_toList_eq (by simpa using split)
      have nowhere : steps "" = [] := by decide
      rw [trailing, nowhere, List.append_nil]
      exact steps_of_toList_eq (by simp [split])
  · exact steps_of_toList_eq (by simp)

theorem isAbsolute_append {directory : String} (filled : directory ≠ "") (rest : String) :
    isAbsolute (directory ++ rest) = isAbsolute directory := by
  obtain ⟨first, others, parts⟩ :=
    List.exists_cons_of_ne_nil (mt String.toList_eq_nil_iff.mp filled)
  simp [isAbsolute, parts]

theorem isAbsolute_join {directory path : String} (relative : isAbsolute path = false) :
    isAbsolute (join directory path) = isAbsolute directory := by
  rw [join, if_neg (by simp [relative])]
  by_cases filled : directory = ""
  · subst filled
    simpa [isAbsolute] using relative
  · split_ifs
    · exact isAbsolute_append filled path
    · rw [String.append_assoc]
      exact isAbsolute_append filled _

/-- Whether a path begins where the path of a directory begins, takes the steps to the directory and
then the given ones, of which none leads up. -/
structure LeadsBelow (directory : String) (further : List String) (path : String) : Prop where
  beginning : isAbsolute path = isAbsolute directory
  /-- The steps come after those to the directory. -/
  steps : Storage.steps path = Storage.steps directory ++ further
  downward : ".." ∉ further

theorem leadsBelow_join {path : String} (root : String) (stays : ¬ Escapes path) :
    LeadsBelow root (steps path) (join root path) where
  beginning := isAbsolute_join (isAbsolute_of_not_escapes stays)
  steps := steps_join (isAbsolute_of_not_escapes stays)
  downward := notMem_steps fun climbs => stays (.inr climbs)

/-! ## Places -/

/-- Where some steps lead from a place; a double dot leads up, and no further than to the top. -/
def lead (place : List String) : List String → List String
  | [] => place
  | step :: rest => lead (if step = ".." then place.dropLast else place ++ [step]) rest

theorem lead_append (place first second : List String) :
    lead place (first ++ second) = lead (lead place first) second := by
  induction first generalizing place with
  | nil => rfl
  | cons step rest ih => exact ih _

theorem lead_of_downward {steps : List String} (downward : ".." ∉ steps) (place : List String) :
    lead place steps = place ++ steps := by
  induction steps generalizing place with
  | nil => simp [lead]
  | cons step rest ih =>
      obtain ⟨other, later⟩ := not_or.mp (mt List.mem_cons.mpr downward)
      rw [lead, if_neg (Ne.symm other), ih later, List.append_assoc, List.singleton_append]

/-- What is read along some segments is the file to which they lead. -/
theorem Tree.lookup_of_follow {tree : Tree} {place : List String} {path : List (List Char)}
    {bytes : ByteString} (read : tree.follow place path = .ok bytes) :
    tree.files.lookup (lead place ((path.filter fun segment => !isHere segment).map
      String.ofList)) = some bytes := by
  induction path generalizing place with
  | nil =>
      rw [follow] at read
      split at read
      · next found => exact found.trans (congrArg some (Except.ok.inj read))
      · cases read
  | cons segment rest ih =>
      rw [follow] at read
      split_ifs at read with directory here climbs long
      · simpa [here] using ih read
      · obtain rfl : segment = ['.', '.'] := beq_iff_eq.mp climbs
        exact ih read
      · have other : String.ofList segment ≠ ".." := fun same =>
          climbs (beq_iff_eq.mpr (String.ofList_injective same))
        simpa [here, lead, other] using ih read

/-- Below a directory no file is read but one that is below the place of the directory. -/
theorem LeadsBelow.lookup_of_follow {directory path : String} {further : List String}
    (below : LeadsBelow directory further path) {tree : Tree} {start : List String}
    {bytes : ByteString} (read : tree.follow start (segments path.toList) = .ok bytes) :
    tree.files.lookup (lead start (Storage.steps directory) ++ further) = some bytes := by
  have found := Tree.lookup_of_follow read
  change tree.files.lookup (lead start (Storage.steps path)) = some bytes at found
  rwa [below.steps, lead_append, lead_of_downward below.downward] at found

/-! ## Reading -/

/-- Whether a path is refused: nothing is asked, and the outcome is an error that names the path. -/
def Refuses (root path : String) : Prop :=
  ∀ (ε : Type) (trace : List (Exchange machine))
    (outcome : Except ε (Except IndexingError (Option ByteString))),
    (content root path).Yields trace outcome ↔
      trace = [] ∧ outcome =
        .ok (.error (.content ("Refusing to read outside the storage root: " ++ path)))

/-- Whether one file is read for a path, and nothing else is asked. -/
def Reads (root path place : String) : Prop :=
  ∀ (ε : Type) (trace : List (Exchange machine))
    (outcome : Except ε (Except IndexingError (Option ByteString))),
    (content root path).Yields trace outcome ↔
      ∃ reply : Except ReadError ByteString,
        trace = [⟨.read place, reply⟩] ∧ outcome = .ok (textAt place reply)

theorem refuses_of_escapes {path : String} (root : String) (escapes : Escapes path) :
    Refuses root path := by
  intro ε trace outcome
  rw [content, if_neg (by simpa [isConfined_iff] using escapes)]
  exact Program.yields_done_iff

theorem reads_of_not_escapes {path : String} (root : String) (stays : ¬ Escapes path) :
    Reads root path (join root path) := by
  intro ε trace outcome
  rw [content, if_pos ((isConfined_iff path).mpr stays)]
  constructor
  · intro run
    obtain ⟨reply, rest, rfl, ended⟩ := Program.yields_ask_iff.mp run
    obtain ⟨rfl, rfl⟩ := Program.yields_done_iff.mp ended
    exact ⟨reply, rfl, rfl⟩
  · rintro ⟨reply, rfl, rfl⟩
    exact Program.yields_ask_iff.mpr ⟨reply, [], rfl, .done _⟩

theorem Reads.not_refuses {root path place : String} (reads : Reads root path place) :
    ¬ Refuses root path := by
  intro refuses
  have run := (reads Unit _ _).mpr ⟨.error .notFound, rfl, rfl⟩
  obtain ⟨nothing, -⟩ := (refuses Unit _ _).mp run
  cases nothing

theorem refuses_iff (root path : String) : Refuses root path ↔ Escapes path := by
  constructor
  · intro refuses
    by_contra stays
    exact (reads_of_not_escapes root stays).not_refuses refuses
  · exact refuses_of_escapes root

/-- Whether one file is read for a path, and it is found by some steps below a directory: by the
text of its path, and in every tree of files wherever the path is followed from. -/
structure ReadsBelow (root path directory : String) (further : List String) : Prop where
  reads : Reads root path (join root path)
  /-- The place is below the directory. -/
  below : LeadsBelow directory further (join root path)
  /-- What is found there is a file below the place of the directory. -/
  found : ∀ (tree : Tree) (start : List String) (bytes : ByteString),
    tree.follow start (segments (join root path).toList) = .ok bytes →
      tree.files.lookup (lead start (steps directory) ++ further) = some bytes

theorem LeadsBelow.readsBelow {root path directory : String} {further : List String}
    (stays : ¬ Escapes path) (below : LeadsBelow directory further (join root path)) :
    ReadsBelow root path directory further :=
  ⟨reads_of_not_escapes root stays, below, fun _ _ _ read => below.lookup_of_follow read⟩

/-! ## Texts -/

/-- The directory of the extracted texts. -/
def textDirectory : String := "learning_material_texts"

theorem textPath_eq (relative : String) :
    textPath relative = textDirectory ++ "/" ++ relative := rfl

theorem isAbsolute_textDirectory : isAbsolute textDirectory = false := by decide

/-- The path of a text does not begin with a slash, whatever the path of the file begins with. -/
theorem isAbsolute_textPath (relative : String) : isAbsolute (textPath relative) = false := by
  rw [textPath_eq, String.append_assoc, isAbsolute_append (by decide), isAbsolute_textDirectory]

theorem toList_textPath (relative : String) :
    (textPath relative).toList = textDirectory.toList ++ '/' :: relative.toList := by
  simp [textPath_eq]

theorem escapes_textPath_iff (relative : String) :
    Escapes (textPath relative) ↔ ['.', '.'] ∈ relative.toList.splitOn '/' := by
  have front : (textPath relative).toList.head? ≠ some '/' :=
    beq_eq_false_iff_ne.mp (isAbsolute_textPath relative)
  have level : ['.', '.'] ∉ textDirectory.toList.splitOn '/' := by decide
  rw [Escapes, or_iff_right front, toList_textPath, List.splitOn_append_cons_self,
    List.mem_append, or_iff_right level]

theorem leadsBelow_textPath {relative : String} (root : String)
    (level : ['.', '.'] ∉ relative.toList.splitOn '/') :
    LeadsBelow (join root textDirectory) (steps relative) (join root (textPath relative)) where
  beginning := by
    rw [isAbsolute_join (isAbsolute_textPath relative), isAbsolute_join isAbsolute_textDirectory]
  steps := by
    rw [steps_join (isAbsolute_textPath relative), steps_join isAbsolute_textDirectory,
      steps_of_toList_eq (toList_textPath relative), List.append_assoc]
  downward := notMem_steps level

/-- Every path is refused or read below the root, and every path of a text is refused or read below
the directory of the texts. -/
theorem refuses_or_reads_below (root : String) :
    (∀ path, (Refuses root path ↔ Escapes path) ∧
      (¬ Escapes path → ReadsBelow root path root (steps path))) ∧
    ∀ relative,
      (Refuses root (textPath relative) ↔ ['.', '.'] ∈ relative.toList.splitOn '/') ∧
        (['.', '.'] ∉ relative.toList.splitOn '/' →
          ReadsBelow root (textPath relative) (join root textDirectory) (steps relative)) := by
  refine ⟨fun path => ⟨refuses_iff root path, fun stays => ?_⟩,
    fun relative => ⟨?_, fun level => ?_⟩⟩
  · exact (leadsBelow_join root stays).readsBelow stays
  · exact (refuses_iff root _).trans (escapes_textPath_iff relative)
  · exact (leadsBelow_textPath root level).readsBelow (mt (escapes_textPath_iff relative).mp level)

namespace Sample

/-- A text in a directory whose name is three dots, and a file outside of the data. -/
def tree : Tree :=
  .ofList [("srv/data/learning_material_texts/.../w1", some [0x68, 0x69]),
    ("srv/secret", some [0x21])]

/-- Slashes in front and three dots lead to the text, and two dots lead nowhere. -/
theorem reads_below_dotted :
    ¬ Escapes "a//./b/" ∧ ReadsBelow "/srv/data/" "a//./b/" "/srv/data/" ["a", "b"] ∧
      Escapes "a/../../secret" ∧ Refuses "/srv/data/" "a/../../secret" ∧
      Refuses "/srv/data/" (textPath "x/../../../secret") ∧
      ['.', '.'] ∉ "//./.../w1".toList.splitOn '/' ∧
      tree.follow [] (segments (join "/srv/data/" (textPath "//./.../w1")).toList) =
        .ok [0x68, 0x69] ∧
      tree.files.lookup (["srv", "data", "learning_material_texts"] ++ ["...", "w1"]) =
        some [0x68, 0x69] := by
  obtain ⟨any, texts⟩ := refuses_or_reads_below "/srv/data/"
  have stays : ¬ Escapes "a//./b/" := (isConfined_iff _).mp (by decide)
  have climbs : Escapes "a/../../secret" := .inr (by decide)
  have level : ['.', '.'] ∉ "//./.../w1".toList.splitOn '/' := by decide
  have read : tree.follow [] (segments (join "/srv/data/" (textPath "//./.../w1")).toList) =
      .ok [0x68, 0x69] := by
    decide
  have found := ((texts "//./.../w1").2 level).found tree [] _ read
  exact ⟨stays, (any _).2 stays, climbs, (any _).1.mpr climbs, (texts _).1.mpr (by decide), level,
    read, found⟩

end Sample

end Storage
end LearningIndex
