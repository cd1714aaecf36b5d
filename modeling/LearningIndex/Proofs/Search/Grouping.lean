import LearningIndex.Indexing.Curriculum
import Mathlib.Data.List.Induction
import Mathlib.Data.List.Nodup
import Mathlib.Data.List.Perm.Basic

/-!
# Hits grouped by course

The hits of a search are taken up one after the other.  At each moment the entries are those of the
hits so far: one for each course, in the order in which the courses appeared, with the sessions of
the hits of that course, their best score, and what the first of them tells about the course.  If
the hits come with the best ones first, so do the entries.
-/

namespace LearningIndex

namespace Binary64

/-! ## The order of numbers -/

theorem le_refl (number : Binary64) : number.le number := by
  simp [le]

theorem le_trans {first second third : Binary64} (low : first.le second) (high : second.le third) :
    first.le third := by
  simp only [le, decide_eq_true_eq] at low high ⊢
  omega

theorem le_total (first second : Binary64) : first.le second ∨ second.le first := by
  simp only [le, decide_eq_true_eq]
  omega

theorem max_of_le {left right : Binary64} (below : right.le left) : left.max right = left :=
  if_pos below

theorem max_cases (left right : Binary64) : left.max right = left ∨ left.max right = right := by
  unfold max
  split_ifs <;> simp

theorem left_le_max (left right : Binary64) : left.le (left.max right) := by
  unfold max
  split_ifs with below
  · exact le_refl left
  · exact (le_total left right).resolve_right below

theorem right_le_max (left right : Binary64) : right.le (left.max right) := by
  unfold max
  split_ifs with below
  · exact below
  · exact le_refl right

end Binary64

namespace CurriculumIndexer

/-! ## What entries tell -/

/-- The session of a hit, if it can be read. -/
def SessionHit.session? (hit : SessionHit) : Option Int :=
  integerField? hit.source sessionIdField

def readableHits (answer : Json) : List SessionHit :=
  (hitsOf answer).filterMap sessionHit?

def ofCourse (hits : List SessionHit) (course : Int) : List SessionHit :=
  hits.filter (·.courseId = course)

/-- An entry tells of all hits of its course. -/
structure Tells (hits : List SessionHit) (entry : CourseHit) : Prop where
  /-- The title, the school and the year are those of the first hit. -/
  heading : ∃ first, (ofCourse hits entry.courseId).head? = some first ∧
    entry.title = textField first.source "courseTitle" ∧
    entry.school = textField first.source "school" ∧
    entry.year = integerField? first.source "courseYear"
  /-- The sessions are those that can be read, in the order of the hits. -/
  sessions : entry.sessionIds = (ofCourse hits entry.courseId).filterMap (·.session?)
  /-- The score is the score of a hit. -/
  attained : ∃ hit ∈ ofCourse hits entry.courseId, hit.score = entry.score
  /-- No hit has a better score. -/
  best : ∀ hit ∈ ofCourse hits entry.courseId, hit.score.le entry.score

/-- The entries tell of all hits. -/
structure Groups (hits : List SessionHit) (entries : List CourseHit) : Prop where
  /-- There is one entry for each course, in the order in which the courses appear. -/
  order : entries.map (·.courseId) = (hits.map (·.courseId)).eraseDups
  distinct : (entries.map (·.courseId)).Nodup
  /-- Each entry tells of the hits of its course. -/
  tell : ∀ entry ∈ entries, Tells hits entry
  /-- No session is lost or told of twice. -/
  all : (entries.flatMap (·.sessionIds)).Perm (hits.filterMap (·.session?))

theorem sessionHit?_eq_some_iff {value : Json} {hit : SessionHit} :
    sessionHit? value = some hit ↔
      value.get? "_source" = some hit.source ∧
        integerField? hit.source courseIdField = some hit.courseId ∧
          hit.score = ((value.get? "_score").bind Json.float?).getD (Binary64.zero false) := by
  cases hit with
  | mk course source score =>
      simp only [sessionHit?, Option.bind_eq_bind, Option.bind_eq_some_iff, Option.pure_def,
        Option.some.injEq, SessionHit.mk.injEq]
      constructor
      · rintro ⟨_, found, _, read, rfl, rfl, rfl⟩
        exact ⟨found, read, rfl⟩
      · rintro ⟨found, read, rfl⟩
        exact ⟨source, found, course, read, rfl, rfl, rfl⟩

/-! ## One more hit -/

theorem filterMap_session?_singleton (hit : SessionHit) :
    [hit].filterMap (·.session?) = hit.session?.toList := by
  cases found : hit.session? <;> simp [found]

theorem eraseDups_append_singleton {κ : Type} [DecidableEq κ] (items : List κ) (item : κ) :
    (items ++ [item]).eraseDups = items.eraseDups ++ if item ∈ items then [] else [item] := by
  rw [List.eraseDups_append, List.removeAll, List.filter_singleton]
  by_cases known : item ∈ items <;> simp [known, List.eraseDups_cons]

theorem insertHit_of_mem {entries : List CourseHit} {hit : SessionHit}
    (distinct : (entries.map (·.courseId)).Nodup)
    (known : hit.courseId ∈ entries.map (·.courseId)) :
    insertHit entries hit =
      entries.map fun entry =>
        if entry.courseId = hit.courseId then addHit entry hit else entry := by
  induction entries with
  | nil => simp at known
  | cons entry rest ih =>
      obtain ⟨absent, later⟩ := List.nodup_cons.mp distinct
      rw [insertHit, List.map_cons]
      by_cases own : entry.courseId = hit.courseId
      · have others : (rest.map fun entry =>
            if entry.courseId = hit.courseId then addHit entry hit else entry) = rest.map id := by
          apply List.map_congr_left
          intro other member
          apply if_neg
          intro same
          exact absent (List.mem_map.mpr ⟨other, member, same.trans own.symm⟩)
        rw [if_pos own, if_pos own, others, List.map_id]
      · rw [if_neg own, if_neg own, ih later]
        exact (List.mem_cons.mp known).resolve_left (Ne.symm own)

theorem insertHit_of_notMem {entries : List CourseHit} {hit : SessionHit}
    (new : hit.courseId ∉ entries.map (·.courseId)) :
    insertHit entries hit = entries ++ [addHit (firstHit hit) hit] := by
  induction entries with
  | nil => rfl
  | cons entry rest ih =>
      rw [List.map_cons, List.mem_cons, not_or] at new
      rw [insertHit, if_neg (Ne.symm new.1), ih new.2, List.cons_append]

theorem perm_insertHit (entries : List CourseHit) (hit : SessionHit) :
    ((insertHit entries hit).flatMap (·.sessionIds)).Perm
      (entries.flatMap (·.sessionIds) ++ hit.session?.toList) := by
  induction entries with
  | nil => simp [insertHit, addHit, firstHit, SessionHit.session?]
  | cons entry rest ih =>
      rw [insertHit]
      split_ifs with own
      · simp only [List.flatMap_cons, addHit, List.append_assoc]
        apply List.Perm.append_left
        exact List.perm_append_comm
      · simp only [List.flatMap_cons, List.append_assoc]
        exact ih.append_left entry.sessionIds

section Step

variable {hits : List SessionHit} {entries : List CourseHit} {hit : SessionHit} {entry : CourseHit}

theorem ofCourse_append_of_eq {course : Int} (own : course = hit.courseId) :
    ofCourse (hits ++ [hit]) course = ofCourse hits course ++ [hit] := by
  simp [ofCourse, own]

theorem ofCourse_append_of_ne {course : Int} (other : course ≠ hit.courseId) :
    ofCourse (hits ++ [hit]) course = ofCourse hits course := by
  simp [ofCourse, Ne.symm other]

/-- An entry that takes up one more hit of its course tells of that too. -/
theorem Tells.addHit (tells : Tells hits entry) (own : entry.courseId = hit.courseId) :
    Tells (hits ++ [hit]) (addHit entry hit) := by
  have more : ofCourse (hits ++ [hit]) entry.courseId = ofCourse hits entry.courseId ++ [hit] :=
    ofCourse_append_of_eq own
  obtain ⟨first, front, heading⟩ := tells.heading
  constructor
  · refine ⟨first, ?_, heading⟩
    change (ofCourse (hits ++ [hit]) entry.courseId).head? = some first
    rw [more, List.head?_append, front, Option.some_or]
  · change entry.sessionIds ++ hit.session?.toList =
      (ofCourse (hits ++ [hit]) entry.courseId).filterMap (·.session?)
    rw [more, List.filterMap_append, ← tells.sessions, filterMap_session?_singleton]
  · change ∃ found ∈ ofCourse (hits ++ [hit]) entry.courseId,
      found.score = entry.score.max hit.score
    rw [more]
    rcases Binary64.max_cases entry.score hit.score with kept | raised
    · obtain ⟨found, member, same⟩ := tells.attained
      exact ⟨found, List.mem_append_left _ member, same.trans kept.symm⟩
    · exact ⟨hit, by simp, raised.symm⟩
  · change ∀ found ∈ ofCourse (hits ++ [hit]) entry.courseId,
      found.score.le (entry.score.max hit.score)
    rw [more]
    intro found member
    rcases List.mem_append.mp member with earlier | last
    · exact Binary64.le_trans (tells.best found earlier) (Binary64.left_le_max _ _)
    · rw [List.mem_singleton] at last
      rw [last]
      exact Binary64.right_le_max _ _

theorem Tells.of_ofCourse_eq {others : List SessionHit} (tells : Tells hits entry)
    (same : ofCourse others entry.courseId = ofCourse hits entry.courseId) :
    Tells others entry := by
  constructor
  · rw [same]
    exact tells.heading
  · rw [same]
    exact tells.sessions
  · rw [same]
    exact tells.attained
  · rw [same]
    exact tells.best

theorem tells_firstHit (new : ofCourse hits hit.courseId = []) :
    Tells (hits ++ [hit]) (addHit (firstHit hit) hit) := by
  have only : ofCourse (hits ++ [hit]) (addHit (firstHit hit) hit).courseId = [hit] := by
    change ofCourse (hits ++ [hit]) hit.courseId = [hit]
    rw [ofCourse_append_of_eq rfl, new, List.nil_append]
  have score : (addHit (firstHit hit) hit).score = hit.score :=
    Binary64.max_of_le (Binary64.le_refl hit.score)
  constructor
  · exact ⟨hit, by rw [only]; rfl, rfl, rfl, rfl⟩
  · rw [only, filterMap_session?_singleton]
    rfl
  · exact ⟨hit, by simp [only], score.symm⟩
  · rw [only, score]
    simpa using Binary64.le_refl hit.score

/-- The entries tell of one more hit once it is taken up. -/
theorem Groups.insertHit (groups : Groups hits entries) :
    Groups (hits ++ [hit]) (insertHit entries hit) := by
  have all : ((CurriculumIndexer.insertHit entries hit).flatMap (·.sessionIds)).Perm
      ((hits ++ [hit]).filterMap (·.session?)) := by
    rw [List.filterMap_append, filterMap_session?_singleton]
    exact (perm_insertHit entries hit).trans (groups.all.append_right _)
  have appeared : hit.courseId ∈ entries.map (·.courseId) ↔
      hit.courseId ∈ hits.map (·.courseId) := by
    rw [groups.order, List.mem_eraseDups]
  have order : ((hits ++ [hit]).map (·.courseId)).eraseDups =
      entries.map (·.courseId) ++
        if hit.courseId ∈ entries.map (·.courseId) then [] else [hit.courseId] := by
    rw [List.map_append, List.map_singleton, eraseDups_append_singleton, ← groups.order,
      if_congr appeared rfl rfl]
  -- A course that has an entry keeps its place, and a new one comes last.
  by_cases known : hit.courseId ∈ entries.map (·.courseId)
  · rw [if_pos known, List.append_nil] at order
    rw [insertHit_of_mem groups.distinct known] at all ⊢
    have courses : ((entries.map fun entry =>
        if entry.courseId = hit.courseId then CurriculumIndexer.addHit entry hit else entry).map
          (·.courseId)) = entries.map (·.courseId) := by
      rw [List.map_map]
      apply List.map_congr_left
      intro entry _
      rw [Function.comp_apply]
      split_ifs <;> rfl
    refine ⟨courses.trans order.symm, courses ▸ groups.distinct, ?_, all⟩
    intro entry member
    obtain ⟨before, inside, rfl⟩ := List.mem_map.mp member
    have tells := groups.tell before inside
    by_cases own : before.courseId = hit.courseId
    · rw [if_pos own]
      exact tells.addHit own
    · rw [if_neg own]
      exact tells.of_ofCourse_eq (ofCourse_append_of_ne own)
  · rw [if_neg known] at order
    rw [insertHit_of_notMem known] at all ⊢
    have courses : (entries ++ [CurriculumIndexer.addHit (firstHit hit) hit]).map (·.courseId) =
        entries.map (·.courseId) ++ [hit.courseId] := by
      rw [List.map_append]
      rfl
    refine ⟨courses.trans order.symm, ?_, ?_, all⟩
    · rw [courses]
      exact List.nodup_append.mpr ⟨groups.distinct, List.nodup_singleton _, by grind⟩
    · intro entry member
      rcases List.mem_append.mp member with earlier | last
      · apply (groups.tell entry earlier).of_ofCourse_eq
        apply ofCourse_append_of_ne
        intro same
        exact known (List.mem_map.mpr ⟨entry, earlier, same⟩)
      · rw [List.mem_singleton] at last
        rw [last]
        apply tells_firstHit
        apply List.filter_eq_nil_iff.mpr
        intro found member same
        rw [decide_eq_true_eq] at same
        exact known (appeared.mpr (List.mem_map.mpr ⟨found, member, same⟩))

/-- The scores of the entries stay in order when a hit is taken up that is no better than any hit
before. -/
theorem Groups.pairwise_insertHit (groups : Groups hits entries)
    (lowest : ∀ found ∈ hits, hit.score.le found.score)
    (ordered : entries.Pairwise fun earlier later => later.score.le earlier.score) :
    (CurriculumIndexer.insertHit entries hit).Pairwise fun earlier later =>
      later.score.le earlier.score := by
  have below : ∀ entry ∈ entries, hit.score.le entry.score := by
    intro entry member
    obtain ⟨found, inside, same⟩ := (groups.tell entry member).attained
    rw [← same]
    exact lowest found (List.mem_of_mem_filter inside)
  by_cases known : hit.courseId ∈ entries.map (·.courseId)
  · -- The score of an entry that takes up the hit stays what it is.
    have kept : ∀ entry ∈ entries, (if entry.courseId = hit.courseId then
        CurriculumIndexer.addHit entry hit else entry).score = entry.score := by
      intro entry member
      split_ifs
      · exact Binary64.max_of_le (below entry member)
      · rfl
    rw [insertHit_of_mem groups.distinct known, List.pairwise_map]
    apply ordered.imp_of_mem
    intro earlier later first second order
    rwa [kept earlier first, kept later second]
  · rw [insertHit_of_notMem known]
    refine List.pairwise_append.mpr ⟨ordered, List.pairwise_singleton _ _, ?_⟩
    intro entry member new last
    rw [List.mem_singleton] at last
    rw [last]
    change (hit.score.max hit.score).le entry.score
    rw [Binary64.max_of_le (Binary64.le_refl hit.score)]
    exact below entry member

end Step

/-! ## All hits -/

theorem groups_foldl (hits : List SessionHit) : Groups hits (hits.foldl insertHit []) := by
  induction hits using List.reverseRecOn with
  | nil => exact ⟨rfl, List.nodup_nil, by simp, List.Perm.refl []⟩
  | append_singleton hits hit ih =>
      rw [List.foldl_append]
      exact ih.insertHit

theorem pairwise_foldl {hits : List SessionHit}
    (ordered : hits.Pairwise fun earlier later => later.score.le earlier.score) :
    (hits.foldl insertHit []).Pairwise fun earlier later => later.score.le earlier.score := by
  induction hits using List.reverseRecOn with
  | nil => exact List.Pairwise.nil
  | append_singleton hits hit ih =>
      obtain ⟨before, -, lowest⟩ := List.pairwise_append.mp ordered
      rw [List.foldl_append]
      apply (groups_foldl hits).pairwise_insertHit _ (ih before)
      exact fun found member => lowest found member hit List.mem_cons_self

/-- The courses of an answer are told of by one entry each, in the order in which they appear: with
the sessions of all hits of the course, the best of their scores, and the title, the school and the
year of the first of them.  Every hit whose course can be read has an entry, and hits with the best
ones first give entries with the best ones first. -/
theorem groupByCourse_tells (answer : Json) :
    Groups (readableHits answer) (groupByCourse answer) ∧
      (∀ value ∈ hitsOf answer, ∀ source course, value.get? "_source" = some source →
        integerField? source courseIdField = some course →
          (∃ hit ∈ ofCourse (readableHits answer) course, hit.source = source ∧
            hit.score = ((value.get? "_score").bind Json.float?).getD (Binary64.zero false)) ∧
          ∃! entry, entry ∈ groupByCourse answer ∧ entry.courseId = course) ∧
      ((readableHits answer).Pairwise (fun earlier later => later.score.le earlier.score) →
        (groupByCourse answer).Pairwise fun earlier later => later.score.le earlier.score) := by
  have groups : Groups (readableHits answer) (groupByCourse answer) := groups_foldl _
  refine ⟨groups, fun value member source course found read => ?_, pairwise_foldl⟩
  let hit : SessionHit :=
    ⟨course, source, ((value.get? "_score").bind Json.float?).getD (Binary64.zero false)⟩
  have readable : hit ∈ readableHits answer :=
    List.mem_filterMap.mpr ⟨value, member, sessionHit?_eq_some_iff.mpr ⟨found, read, rfl⟩⟩
  refine ⟨⟨hit, List.mem_filter.mpr ⟨readable, by simp [hit]⟩, rfl, rfl⟩, ?_⟩
  have listed : course ∈ (groupByCourse answer).map (·.courseId) := by
    rw [groups.order, List.mem_eraseDups]
    exact List.mem_map.mpr ⟨hit, readable, rfl⟩
  obtain ⟨entry, inside, own⟩ := List.mem_map.mp listed
  refine ⟨entry, ⟨inside, own⟩, fun other both => ?_⟩
  exact List.inj_on_of_nodup_map groups.distinct both.1 inside (both.2.trans own.symm)

namespace Sample

def hit (score course session : Int) (title : String) : Json :=
  .ofFields [("_score", .integer score), ("_source", .ofFields [
    (courseIdField, .integer course), (sessionIdField, .integer session),
    ("courseTitle", .string title)])]

/-- Hits of two courses in turn, one without a source, and one without a score. -/
def answer : Json :=
  .singleton "hits" (.singleton "hits" (.array [
    hit 4 2 20 "Cardio", hit 3 1 10 "Neuro", .ofFields [("_score", .integer 3)],
    hit 2 2 21 "Cardiology",
    .singleton "_source" (.ofFields [(courseIdField, .integer 1), (sessionIdField, .null)])]))

/-- The course of the best hit comes first, with the title of that hit and the sessions of all hits
of the course. -/
theorem groupByCourse_tells_answer :
    (groupByCourse answer).map (fun entry => (entry.courseId, entry.title, entry.sessionIds)) =
        [(2, "Cardio", [20, 21]), (1, "Neuro", [10])] ∧
      (∃! entry, entry ∈ groupByCourse answer ∧ entry.courseId = 1) ∧
      (groupByCourse answer).Pairwise fun earlier later => later.score.le earlier.score := by
  obtain ⟨-, each, ordered⟩ := groupByCourse_tells answer
  refine ⟨by decide +kernel, ?_, ordered (by decide +kernel)⟩
  have found : hit 3 1 10 "Neuro" ∈ hitsOf answer := List.mem_cons_of_mem _ List.mem_cons_self
  exact (each _ found _ 1 rfl (by decide +kernel)).2

end Sample

end CurriculumIndexer
end LearningIndex
