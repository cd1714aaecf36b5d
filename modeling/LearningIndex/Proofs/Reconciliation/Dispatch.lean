import LearningIndex.Proofs.Ascending
import LearningIndex.Proofs.Catalog.Enumeration
import LearningIndex.Proofs.Reconciliation.Plan
import Mathlib

/-!
# What an incremental run hands over

Whatever the indexes answer, a run that succeeds hands over requests for everything that is missing
and one removal for everything that is gone, and nothing else, and its report says how much of each.
-/

namespace LearningIndex

open Calendar (Instant)

@[simp]
theorem absentFrom_eq_filter {κ : Type} [DecidableEq κ] (others items : List κ) :
    absentFrom others items = items.filter (· ∉ others) := by
  simp [absentFrom]

namespace IndexMessage

/-- The ids of a request for learning materials, and whether it is forced. -/
def materialRequest? : IndexMessage → Option (List Int × Bool)
  | indexLearningMaterials ids force => some (ids, force)
  | _ => none

def courseRequest? : IndexMessage → Option (List Int × Instant)
  | indexCourses ids stamp => some (ids, stamp)
  | _ => none

def descriptorRequest? : IndexMessage → Option (List String × Instant)
  | indexMeshDescriptors ids stamp => some (ids, stamp)
  | _ => none

end IndexMessage

namespace Reconciliation

/-- The requests carry the listed ids in order, each id once, in portions that are not too large,
and all of them have the given setting. -/
structure Covers {κ τ : Type} (requests : List (List κ × τ)) (ids : List κ) (setting : τ) :
    Prop where
  all : (requests.map (·.1)).flatten = ids
  once : ids.Nodup
  short : ∀ request ∈ requests, request.1.length ≤ IndexMessage.maxIds
  setting : ∀ request ∈ requests, request.2 = setting

/-- The courses of the sessions that an index does not hold, in the order of these sessions. -/
def ownersOfMissing (snapshot : Snapshot) (indexed : List Int) : List Int :=
  (snapshot.sessionCourseIds.filter fun (session, _) => session ∉ indexed).map (·.2)

/-- The messages and the report that bring indexes with the given contents in line with a
snapshot. -/
structure BringsInLine (snapshot : Snapshot) (stamp : Instant) (found : Inventory)
    (messages : List IndexMessage) (report : ReconciliationReport) : Prop where
  /-- The missing materials are requested, without force. -/
  materials : Covers (messages.filterMap IndexMessage.materialRequest?)
    (snapshot.fileLearningMaterialIds.filter (· ∉ found.materials)) false
  /-- The missing courses are requested and after them the courses of missing sessions. -/
  courses : Covers (messages.filterMap IndexMessage.courseRequest?)
    (snapshot.courseIds.filter (· ∉ found.courses) ++
      ownersOfMissing snapshot found.sessions).eraseDups stamp
  /-- The missing descriptors are requested. -/
  descriptors : Covers (messages.filterMap IndexMessage.descriptorRequest?)
    (snapshot.meshDescriptorIds.filter (· ∉ found.descriptors)) stamp
  /-- Each indexed material without a file is removed once. -/
  materialRemovals : ∀ id, messages.count (.deleteLearningMaterial id) =
    if id ∈ found.materials ∧ id ∉ snapshot.fileLearningMaterialIds then 1 else 0
  courseRemovals : ∀ id, messages.count (.deleteCourse id) =
    if id ∈ found.courses ∧ id ∉ snapshot.courseIds then 1 else 0
  sessionRemovals : ∀ id, messages.count (.deleteSession id) =
    if id ∈ found.sessions ∧ id ∉ snapshot.sessionCourseIds.map (·.1) then 1 else 0
  descriptorRemovals : ∀ id, messages.count (.deleteMeshDescriptor id) =
    if id ∈ found.descriptors ∧ id ∉ snapshot.meshDescriptorIds then 1 else 0
  counts : report = {
    mode := .incremental
    learningMaterials :=
      ⟨(snapshot.fileLearningMaterialIds.filter (· ∉ found.materials)).length,
        (found.materials.filter (· ∉ snapshot.fileLearningMaterialIds)).length⟩
    courses :=
      ⟨(snapshot.courseIds.filter (· ∉ found.courses) ++
          ownersOfMissing snapshot found.sessions).eraseDups.length,
        (found.courses.filter (· ∉ snapshot.courseIds)).length⟩
    sessions :=
      ⟨((snapshot.sessionCourseIds.map (·.1)).filter (· ∉ found.sessions)).length,
        (found.sessions.filter (· ∉ snapshot.sessionCourseIds.map (·.1))).length⟩
    meshDescriptors :=
      ⟨(snapshot.meshDescriptorIds.filter (· ∉ found.descriptors)).length,
        (found.descriptors.filter (· ∉ snapshot.meshDescriptorIds)).length⟩
    messages := messages.length }

theorem covers_batches {κ τ : Type} {ids : List κ} (distinct : ids.Nodup) (setting : τ) :
    Covers ((batches IndexMessage.maxIds ids).map (·, setting)) ids setting where
  all := by simp [Function.comp_def]
  once := distinct
  short := by
    intro request member
    obtain ⟨batch, inside, rfl⟩ := List.mem_map.mp member
    simpa [IndexMessage.maxIds] using length_le_of_mem_batches inside
  setting := by
    intro request member
    obtain ⟨batch, _, rfl⟩ := List.mem_map.mp member
    rfl

theorem eraseDups_of_nodup {κ : Type} [DecidableEq κ] {items : List κ} (distinct : items.Nodup) :
    items.eraseDups = items := by
  induction items with
  | nil => rfl
  | cons first rest ih =>
      obtain ⟨absent, later⟩ := List.nodup_cons.mp distinct
      have unchanged : (rest.filter fun item => !item == first) = rest := by
        refine List.filter_eq_self.mpr fun item member => ?_
        simpa using ne_of_mem_of_not_mem member absent
      rw [List.eraseDups_cons, unchanged, ih later]

theorem nodup_eraseDups {κ : Type} [DecidableEq κ] (items : List κ) : items.eraseDups.Nodup := by
  induction length : items.length using Nat.strong_induction_on generalizing items with
  | _ size ih =>
      cases items with
      | nil => simp
      | cons first rest =>
          rw [List.eraseDups_cons]
          have shorter : (rest.filter fun item => !item == first).length < size := by
            have bound := List.length_filter_le (fun item => !item == first) rest
            rw [← length, List.length_cons]
            omega
          exact List.nodup_cons.mpr ⟨by simp, ih _ shorter _ rfl⟩

/-- The added courses are the owners of the sessions that were not there yet, first occurrences
only. -/
theorem addOwners_eq_eraseDups (sessions : List (Int × Int)) {courses : List Int}
    (missing : List Int) (distinct : courses.Nodup) :
    addOwners sessions courses missing =
      (courses ++ missing.filterMap (courseOf? sessions)).eraseDups := by
  induction missing generalizing courses with
  | nil =>
      simp only [addOwners, List.filterMap_nil, List.append_nil]
      exact (eraseDups_of_nodup distinct).symm
  | cons session rest ih =>
      rw [addOwners]
      cases owner : courseOf? sessions session with
      | none => simpa [owner] using ih distinct
      | some course =>
          simp only [List.filterMap_cons, owner]
          by_cases present : course ∈ courses
          · simp only [List.contains_eq_mem, present, decide_true, ↓reduceIte, ih distinct]
            rw [List.eraseDups_append, List.eraseDups_append]
            simp [List.removeAll, present]
          · have extended : (courses ++ [course]).Nodup := by
              simpa [List.nodup_append, present] using
                ⟨distinct, fun other member => ne_of_mem_of_not_mem member present⟩
            simp [present, ih extended]

theorem lookup_eq_some_of_mem {κ τ : Type} [DecidableEq κ] {pairs : List (κ × τ)}
    {key : κ} {value : τ} (distinct : (pairs.map (·.1)).Nodup) (member : (key, value) ∈ pairs) :
    pairs.lookup key = some value := by
  induction pairs with
  | nil => simp at member
  | cons pair rest ih =>
      obtain ⟨absent, later⟩ := List.nodup_cons.mp distinct
      rcases List.mem_cons.mp member with rfl | member
      · exact List.lookup_cons_self
      · have other : key ≠ pair.1 := by
          rintro rfl
          exact absent (List.mem_map.mpr ⟨_, member, rfl⟩)
        rw [List.lookup_cons, beq_false_of_ne other]
        exact ih later member

theorem courseOf?_eq_some_of_mem {sessions : List (Int × Int)} {session course : Int}
    (distinct : (sessions.map (·.1)).Nodup) (member : (session, course) ∈ sessions) :
    courseOf? sessions session = some course := by
  refine lookup_eq_some_of_mem ?_ (List.mem_reverse.mpr member)
  rw [List.map_reverse]
  exact List.nodup_reverse.mpr distinct

theorem filterMap_courseOf?_missingSessions {snapshot : Snapshot}
    (distinct : snapshot.DistinctIn CurriculumIndexer.indexName) (indexed : List Int) :
    (missingSessions snapshot indexed).filterMap (courseOf? snapshot.sessionCourseIds) =
      ownersOfMissing snapshot indexed := by
  rw [missingSessions, absentFrom_eq_filter, sessionIds, List.filter_map, List.filterMap_map,
    ownersOfMissing, ← List.filterMap_eq_map]
  refine List.filterMap_congr fun pair member => ?_
  exact courseOf?_eq_some_of_mem (distinct.sessions rfl) (List.mem_of_mem_filter member)

theorem requestedCourses_eq {snapshot : Snapshot}
    (distinct : snapshot.DistinctIn CurriculumIndexer.indexName) (courses sessions : List Int) :
    requestedCourses snapshot courses sessions =
      (snapshot.courseIds.filter (· ∉ courses) ++ ownersOfMissing snapshot sessions).eraseDups := by
  rw [requestedCourses, missingCourses, absentFrom_eq_filter,
    addOwners_eq_eraseDups _ _ ((distinct.courses rfl).filter _),
    filterMap_courseOf?_missingSessions distinct]

theorem fileMaterials_nodup {snapshot : Snapshot}
    (distinct : (snapshot.learningMaterials.map (·.id)).Nodup) :
    snapshot.fileLearningMaterialIds.Nodup :=
  distinct.sublist (List.filter_sublist.map _)

theorem count_of_nodup {κ : Type} [DecidableEq κ] {items : List κ} (distinct : items.Nodup)
    (item : κ) : items.count item = if item ∈ items then 1 else 0 := by
  split
  · exact List.count_eq_one_of_mem distinct ‹_›
  · exact List.count_eq_zero_of_not_mem ‹_›

theorem count_removals {κ : Type} [DecidableEq κ] {message : κ → IndexMessage}
    (injective : Function.Injective message) {indexed : List κ} (distinct : indexed.Nodup)
    (known : List κ) (id : κ) :
    ((absentFrom known indexed).map message).count (message id) =
      if id ∈ indexed ∧ id ∉ known then 1 else 0 := by
  rw [List.count_map_of_injective _ _ injective, absentFrom_eq_filter,
    count_of_nodup (distinct.filter _)]
  simp

theorem count_map_eq_zero {κ : Type} {message : κ → IndexMessage} {other : IndexMessage}
    (apart : ∀ id, message id ≠ other) (ids : List κ) : (ids.map message).count other = 0 := by
  refine List.count_eq_zero_of_not_mem fun member => ?_
  obtain ⟨id, _, same⟩ := List.mem_map.mp member
  exact apart id same

/-- The plan and its report bring the indexes in line. -/
theorem plan_bringsInLine {snapshot : Snapshot} (distinct : snapshot.Distinct) (stamp : Instant)
    {found : Inventory} (materials : found.materials.Nodup) (courses : found.courses.Nodup)
    (sessions : found.sessions.Nodup) (descriptors : found.descriptors.Nodup) :
    BringsInLine snapshot stamp found (plan snapshot stamp found)
      (planReport snapshot stamp found) where
  materials := by
    have requests : (plan snapshot stamp found).filterMap IndexMessage.materialRequest? =
        (batches IndexMessage.maxIds (missingMaterials snapshot found.materials)).map
          (·, false) := by
      simp [plan, materialPlan, coursePlan, descriptorPlan, List.filterMap_map,
        Function.comp_def, IndexMessage.materialRequest?]
    rw [requests, missingMaterials, absentFrom_eq_filter]
    exact covers_batches ((fileMaterials_nodup distinct.materials).filter _) false
  courses := by
    have requests : (plan snapshot stamp found).filterMap IndexMessage.courseRequest? =
        (batches IndexMessage.maxIds
          (requestedCourses snapshot found.courses found.sessions)).map (·, stamp) := by
      simp [plan, materialPlan, coursePlan, descriptorPlan, List.filterMap_map,
        Function.comp_def, IndexMessage.courseRequest?]
    rw [requests, requestedCourses_eq (distinct.within _)]
    exact covers_batches (nodup_eraseDups _) stamp
  descriptors := by
    have requests : (plan snapshot stamp found).filterMap IndexMessage.descriptorRequest? =
        (batches IndexMessage.maxIds (missingDescriptors snapshot found.descriptors)).map
          (·, stamp) := by
      simp [plan, materialPlan, coursePlan, descriptorPlan, List.filterMap_map,
        Function.comp_def, IndexMessage.descriptorRequest?]
    rw [requests, missingDescriptors, absentFrom_eq_filter]
    exact covers_batches (distinct.descriptors.filter _) stamp
  materialRemovals := by
    intro id
    simp only [plan, materialPlan, coursePlan, descriptorPlan, List.count_append, staleMaterials]
    rw [count_removals (fun _ _ same => IndexMessage.deleteLearningMaterial.inj same) materials]
    simp [count_map_eq_zero]
  courseRemovals := by
    intro id
    simp only [plan, materialPlan, coursePlan, descriptorPlan, List.count_append, staleCourses]
    rw [count_removals (fun _ _ same => IndexMessage.deleteCourse.inj same) courses]
    simp [count_map_eq_zero]
  sessionRemovals := by
    intro id
    simp only [plan, materialPlan, coursePlan, descriptorPlan, List.count_append, staleSessions,
      sessionIds]
    rw [count_removals (fun _ _ same => IndexMessage.deleteSession.inj same) sessions]
    simp [count_map_eq_zero]
  descriptorRemovals := by
    intro id
    simp only [plan, materialPlan, coursePlan, descriptorPlan, List.count_append, staleDescriptors]
    rw [count_removals (fun _ _ same => IndexMessage.deleteMeshDescriptor.inj same) descriptors]
    simp [count_map_eq_zero]
  counts := by
    simp [planReport, requestedCourses_eq (distinct.within _), missingMaterials, staleMaterials,
      staleCourses, missingSessions, staleSessions, missingDescriptors, staleDescriptors,
      sessionIds]

/-- In a run with this trace the clock told the stamp, and then the four enumerations, each over a
part of the trace, found the inventory. -/
def Enumerates (handler : Handler) (trace : List (Exchange dispatching)) (stamp : Instant)
    (found : Inventory) : Prop :=
  ∃ materials courses sessions descriptors : List (Exchange services),
    trace.filterMap Producer.service? =
      ⟨.clock, stamp⟩ :: (materials ++ courses ++ sessions ++ descriptors) ∧
    handler.indexers.learningMaterials.allIds.Yields materials (.ok found.materials) ∧
    handler.indexers.curriculum.allCourseIds.Yields courses (.ok found.courses) ∧
    handler.indexers.curriculum.allSessionIds.Yields sessions (.ok found.sessions) ∧
    handler.indexers.mesh.allIds.Yields descriptors (.ok found.descriptors)

theorem nodup_of_distinctIds {catalog : Catalog} {field : String}
    {trace : List (Exchange services)} {ids : List Int}
    (run : (catalog.distinctIds field).Yields trace (.ok ids)) : ids.Nodup := by
  obtain ⟨listed, first, second, _, _, later⟩ := Program.yields_andThen_ok_iff.mp run
  obtain ⟨_, same⟩ := Program.yields_done_iff.mp later
  rw [Except.ok.inj same]
  exact Catalog.nodup_ascending listed

theorem yields_requireEngine {catalog : Catalog} {trace : List (Exchange services)}
    {outcome : Except IndexingError Unit} (run : catalog.requireEngine.Yields trace outcome) :
    trace = [] := by
  unfold Catalog.requireEngine at run
  split at run
  · exact (Program.yields_done_iff.mp run).1
  · exact (Program.yields_done_iff.mp run).1

/-- A successful incremental run lists the four kinds of ids and hands over the plan for what it
found. -/
theorem incremental_yields {handler : Handler} {snapshot : Snapshot}
    (known : handler.repository = .of snapshot) {trace : List (Exchange dispatching)}
    {report : ReconciliationReport}
    (success : (run handler .incremental).Yields trace (.ok report)) :
    ∃ stamp found, Enumerates handler trace stamp found ∧
      trace.filterMap Producer.accepted? = plan snapshot stamp found ∧
      report = planReport snapshot stamp found := by
  obtain ⟨_, checked, begun, rfl, engine, success⟩ := Program.yields_andThen_ok_iff.mp success
  obtain ⟨stamp, timed, listed, rfl, time, success⟩ := Program.yields_andThen_ok_iff.mp success
  simp only at success
  rw [runIncremental_eq known] at success
  obtain ⟨materials, first, after, rfl, firstRun, success⟩ :=
    Program.yields_andThen_ok_iff.mp success
  obtain ⟨_, _, after, rfl, firstSent, success⟩ := Program.yields_andThen_ok_iff.mp success
  obtain ⟨courses, second, after, rfl, secondRun, success⟩ :=
    Program.yields_andThen_ok_iff.mp success
  obtain ⟨sessions, third, after, rfl, thirdRun, success⟩ :=
    Program.yields_andThen_ok_iff.mp success
  obtain ⟨_, _, after, rfl, secondSent, success⟩ := Program.yields_andThen_ok_iff.mp success
  obtain ⟨descriptors, fourth, after, rfl, fourthRun, success⟩ :=
    Program.yields_andThen_ok_iff.mp success
  obtain ⟨_, _, after, rfl, thirdSent, success⟩ := Program.yields_andThen_ok_iff.mp success
  obtain ⟨rfl, reported⟩ := Program.yields_done_iff.mp success
  obtain ⟨engineTrace, rfl, engineTask⟩ := Producer.yields_ofTask_iff.mp engine
  obtain ⟨timeTrace, rfl, timeTask⟩ := Producer.yields_ofTask_iff.mp time
  obtain ⟨firstTrace, rfl, firstTask⟩ := Producer.yields_ofTask_iff.mp firstRun
  obtain ⟨secondTrace, rfl, secondTask⟩ := Producer.yields_ofTask_iff.mp secondRun
  obtain ⟨thirdTrace, rfl, thirdTask⟩ := Producer.yields_ofTask_iff.mp thirdRun
  obtain ⟨fourthTrace, rfl, fourthTask⟩ := Producer.yields_ofTask_iff.mp fourthRun
  obtain rfl := yields_requireEngine engineTask
  obtain rfl := Task.yields_clock_ok_iff.mp timeTask
  obtain rfl := Producer.yields_dispatchAll_ok_iff.mp firstSent
  obtain rfl := Producer.yields_dispatchAll_ok_iff.mp secondSent
  obtain rfl := Producer.yields_dispatchAll_ok_iff.mp thirdSent
  refine ⟨stamp, ⟨materials, courses, sessions, descriptors⟩,
    ⟨firstTrace, secondTrace, thirdTrace, fourthTrace, ?_, firstTask, secondTask, thirdTask,
      fourthTask⟩, ?_, Except.ok.inj reported⟩
  · simp
  · simp [plan, List.filterMap_cons]

/-- Whatever the services answer, a successful incremental run over distinct ids hands over the
requests and the removals that bring the indexes in line with the snapshot, given what its
enumerations found there, and reports their numbers. -/
theorem incremental_brings_in_line {handler : Handler} {snapshot : Snapshot}
    (known : handler.repository = .of snapshot) (distinct : snapshot.Distinct)
    {trace : List (Exchange dispatching)} {report : ReconciliationReport}
    (success : (run handler .incremental).Yields trace (.ok report)) :
    ∃ stamp found, Enumerates handler trace stamp found ∧
      (found.descriptors.Nodup →
        BringsInLine snapshot stamp found (trace.filterMap Producer.accepted?) report) := by
  obtain ⟨stamp, found, enumerated, handed, rfl⟩ := incremental_yields known success
  refine ⟨stamp, found, enumerated, fun descriptors => ?_⟩
  obtain ⟨_, _, _, _, _, materials, courses, sessions, _⟩ := enumerated
  rw [handed]
  exact plan_bringsInLine distinct stamp (nodup_of_distinctIds materials)
    (nodup_of_distinctIds courses) (nodup_of_distinctIds sessions) descriptors

/-- Wherever the enumerations end well there is a run, and it hands over the plan for what they
found. -/
theorem yields_incremental {handler : Handler} {snapshot : Snapshot}
    (known : handler.repository = .of snapshot)
    (enabled : handler.indexers.learningMaterials.catalog.enabled = true) (stamp : Instant)
    (found : Inventory) {first second third fourth : List (Exchange services)}
    (materials : handler.indexers.learningMaterials.allIds.Yields first (.ok found.materials))
    (courses : handler.indexers.curriculum.allCourseIds.Yields second (.ok found.courses))
    (sessions : handler.indexers.curriculum.allSessionIds.Yields third (.ok found.sessions))
    (descriptors : handler.indexers.mesh.allIds.Yields fourth (.ok found.descriptors)) :
    (run handler .incremental).Yields
      (Producer.served ⟨.clock, stamp⟩ ::
        (first.map Producer.served ++
          ((materialPlan snapshot found.materials).map Producer.handed ++
            (second.map Producer.served ++ (third.map Producer.served ++
              ((coursePlan snapshot stamp found.courses found.sessions).map Producer.handed ++
                (fourth.map Producer.served ++
                  (descriptorPlan snapshot stamp found.descriptors).map Producer.handed)))))))
      (.ok (planReport snapshot stamp found)) := by
  have listed {κ : Type} {task : Task κ} {trace : List (Exchange services)} {ids : κ}
      (listing : task.Yields trace (.ok ids)) :
      (Producer.ofTask task).Yields (trace.map Producer.served) (.ok ids) :=
    Producer.yields_ofTask_iff.mpr ⟨trace, rfl, listing⟩
  have sent (messages : List IndexMessage) :
      (Producer.dispatchAll messages).Yields (messages.map Producer.handed) (.ok ()) :=
    Producer.yields_dispatchAll_ok_iff.mpr rfl
  have checked : handler.indexers.learningMaterials.catalog.requireEngine.Yields [] (.ok ()) := by
    simp [Catalog.requireEngine, enabled]
  have incremental := runIncremental_eq known stamp
  refine (listed checked).andThen ((listed (Task.yields_clock_ok_iff.mpr rfl)).andThen ?_)
  rw [incremental]
  refine (listed materials).andThen ((sent _).andThen ((listed courses).andThen
    ((listed sessions).andThen ((sent _).andThen ((listed descriptors).andThen ?_)))))
  exact Program.yields_andThen_ok_iff.mpr
    ⟨(), _, [], (List.append_nil _).symm, sent _, .done _⟩

namespace Sample

/-- Two materials with a file and one without, two courses with three sessions, two descriptors. -/
def snapshot : Snapshot where
  learningMaterials := [
    ⟨1, "Notes", none, some "notes.pdf", some "a/notes.pdf"⟩,
    ⟨2, "Slides", none, some "slides.pdf", some "b/slides.pdf"⟩,
    ⟨3, "Link", none, none, none⟩]
  courses := [
    ⟨{ id := 1, title := "Anatomy" }, [{ id := 10 }, { id := 11 }]⟩,
    ⟨{ id := 2, title := "Physiology" }, [{ id := 20 }]⟩]
  meshDescriptors := [⟨"D1", "Heart", none, [], []⟩, ⟨"D2", "Lung", none, [], []⟩]

def handler : Handler :=
  ⟨.of snapshot, .new true "1m" 8000000⟩

/-- The last page of a listing. -/
def page (field : String) (values : List Json) : Json :=
  .singleton "hits" (.singleton "hits" (.array
    (values.map fun value => .singleton "_source" (.singleton field value))))

def found : Inventory :=
  ⟨[1, 99], [1, 7], [10, 70], ["D1"]⟩

/-- The request for all values of a field, and its answer. -/
def listing (index field : String) (values : List Json) : Exchange services :=
  ⟨.engine (.search ⟨index, .everything field, some "1m"⟩), .ok (page field values)⟩

theorem yields_listing {κ : Type} [Key κ] (catalog : Catalog) (enabled : catalog.enabled = true)
    (kept : catalog.keepAlive = "1m") (field : String) (values : List Json) :
    (catalog.allIds field : Task (List κ)).Yields [listing catalog.index field values]
      (.ok (Catalog.readable field ((ScrollPage.ofAnswer (page field values)).sources))) := by
  have last : (ScrollPage.ofAnswer (page field values)).scrollId = none := rfl
  have listed := Catalog.yields_allIds_of_last (κ := κ) enabled field last
  rwa [kept] at listed

/-- The run over the indexes. -/
def trace : List (Exchange dispatching) :=
  [Producer.served ⟨.clock, Calendar.Instant.epoch⟩,
    Producer.served (listing "lms-learning-materials" "learningMaterialId"
      [.integer 1, .integer 99]),
    Producer.handed (.indexLearningMaterials [2] false),
    Producer.handed (.deleteLearningMaterial 99),
    Producer.served (listing "lms-curriculum" "courseId" [.integer 1, .integer 7]),
    Producer.served (listing "lms-curriculum" "sessionId" [.integer 10, .integer 70]),
    Producer.handed (.indexCourses [2, 1] Calendar.Instant.epoch),
    Producer.handed (.deleteCourse 7),
    Producer.handed (.deleteSession 70),
    Producer.served (listing "lms-mesh" "id" [.string "D1"]),
    Producer.handed (.indexMeshDescriptors ["D2"] Calendar.Instant.epoch)]

def report : ReconciliationReport :=
  ⟨.incremental, ⟨1, 1⟩, ⟨2, 1⟩, ⟨2, 1⟩, ⟨1, 0⟩, 6⟩

theorem yields_distinctIds (catalog : Catalog) (enabled : catalog.enabled = true)
    (kept : catalog.keepAlive = "1m") (field : String) (values : List Json) {ids : List Int}
    (listed : Catalog.ascending
      (Catalog.readable field (ScrollPage.ofAnswer (page field values)).sources) = ids) :
    (catalog.distinctIds field).Yields [listing catalog.index field values] (.ok ids) := by
  subst listed
  exact (yields_listing catalog enabled kept field values).andThen (.done _)

theorem yields_trace : (run handler .incremental).Yields trace (.ok report) := by
  have materials : handler.indexers.learningMaterials.allIds.Yields
      [listing "lms-learning-materials" "learningMaterialId" [.integer 1, .integer 99]]
      (.ok [1, 99]) :=
    yields_distinctIds handler.indexers.learningMaterials.catalog rfl rfl _ _ (by cbv)
  have courses : handler.indexers.curriculum.allCourseIds.Yields
      [listing "lms-curriculum" "courseId" [.integer 1, .integer 7]] (.ok [1, 7]) :=
    yields_distinctIds handler.indexers.curriculum.catalog rfl rfl _ _ (by cbv)
  have sessions : handler.indexers.curriculum.allSessionIds.Yields
      [listing "lms-curriculum" "sessionId" [.integer 10, .integer 70]] (.ok [10, 70]) :=
    yields_distinctIds handler.indexers.curriculum.catalog rfl rfl _ _ (by cbv)
  have descriptors : handler.indexers.mesh.allIds.Yields
      [listing "lms-mesh" "id" [.string "D1"]] (.ok ["D1"]) :=
    yields_listing handler.indexers.mesh.catalog rfl rfl _ _
  have first : materialPlan snapshot found.materials =
      [.indexLearningMaterials [2] false, .deleteLearningMaterial 99] := by cbv
  have second : coursePlan snapshot Calendar.Instant.epoch found.courses found.sessions =
      [.indexCourses [2, 1] Calendar.Instant.epoch, .deleteCourse 7, .deleteSession 70] := by cbv
  have third : descriptorPlan snapshot Calendar.Instant.epoch found.descriptors =
      [.indexMeshDescriptors ["D2"] Calendar.Instant.epoch] := by cbv
  have counted : planReport snapshot Calendar.Instant.epoch found = report := by cbv
  have known : handler.repository = .of snapshot := rfl
  have complete := yields_incremental known rfl Calendar.Instant.epoch found materials courses
    sessions descriptors
  rw [first, second, third, counted] at complete
  exact complete

theorem incremental_brings_sample_in_line :
    snapshot.Distinct ∧ (run handler .incremental).Yields trace (.ok report) ∧
      ∃ stamp found, Enumerates handler trace stamp found ∧
        (found.descriptors.Nodup →
          BringsInLine snapshot stamp found (trace.filterMap Producer.accepted?) report) := by
  have distinct : snapshot.Distinct := ⟨by decide, by decide, by decide, by decide⟩
  exact ⟨distinct, yields_trace, incremental_brings_in_line rfl distinct yields_trace⟩

end Sample

end Reconciliation
end LearningIndex
