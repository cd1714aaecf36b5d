import LearningIndex.Proofs.Reconciliation.Convergence

/-!
# Courses and sessions after a run

The ids of courses and of sessions are compared one by one, so a session that has moved to another
course is neither missing nor gone.  Under which courses the sessions are filed after a run that
went well follows from how they were filed before, and the ids are those of the snapshot if no
session has moved.
-/

namespace LearningIndex

open Calendar (Instant)

/-- The fields name the session and the course. -/
structure Fields.IsUnder (course session : Int) (fields : Fields) : Prop where
  course : fields.get? CurriculumIndexer.courseIdField = some (.integer course)
  session : fields.get? CurriculumIndexer.sessionIdField = some (.integer session)

/-- The curriculum index has a document of the session in the course. -/
def Filed {σ : Type} (backend : Backend σ) (state : σ) (course session : Int) : Prop :=
  ∃ document ∈ backend.documents state CurriculumIndexer.indexName,
    document.source.IsUnder course session

theorem Fields.IsUnder.of_lasting_eq {course session : Int} {fields others : Fields}
    (same : fields.lasting = others.lasting) (under : fields.IsUnder course session) :
    others.IsUnder course session where
  course := (Fields.get?_eq_of_lasting_eq (by decide) same).symm.trans under.course
  session := (Fields.get?_eq_of_lasting_eq (by decide) same).symm.trans under.session

theorem CompositeCourse.IsAbout.eq_of_isUnder {document : Document}
    {course other session another : Int}
    (about : CompositeCourse.IsAbout document course session)
    (under : document.source.IsUnder other another) : course = other ∧ session = another :=
  ⟨Document.integer_unique about.course under.course,
    Document.integer_unique about.session under.session⟩

section Filed

variable {σ : Type} {backend : Backend σ} {state : σ}

theorem Filed.isSigned64 (belong : ∀ document ∈ backend.documents state CurriculumIndexer.indexName,
      Belongs CurriculumIndexer.indexName document) {course session : Int}
    (filed : Filed backend state course session) :
    Json.isSigned64 course = true ∧ Json.isSigned64 session = true := by
  obtain ⟨document, member, under⟩ := filed
  obtain ⟨_, _, fits, fits', about⟩ := (belong document member).about rfl
  obtain ⟨rfl, rfl⟩ := about.eq_of_isUnder under
  exact ⟨fits, fits'⟩

theorem mem_courses_iff (belong : ∀ document ∈ backend.documents state CurriculumIndexer.indexName,
      Belongs CurriculumIndexer.indexName document) {course : Int} :
    course ∈ (Reconciliation.inventory backend state).courses ↔
      ∃ session, Filed backend state course session := by
  refine Catalog.mem_integers_iff.trans ⟨?_, ?_⟩
  · rintro ⟨_, document, member, shown⟩
    obtain ⟨_, session, _, _, about⟩ := (belong document member).about rfl
    exact ⟨session, document, member, shown, about.session⟩
  · rintro ⟨session, filed⟩
    have fits := (filed.isSigned64 belong).1
    obtain ⟨document, member, under⟩ := filed
    exact ⟨fits, document, member, under.course⟩

theorem mem_sessions_iff (belong : ∀ document ∈ backend.documents state CurriculumIndexer.indexName,
      Belongs CurriculumIndexer.indexName document) {session : Int} :
    session ∈ (Reconciliation.inventory backend state).sessions ↔
      ∃ course, Filed backend state course session := by
  refine Catalog.mem_integers_iff.trans ⟨?_, ?_⟩
  · rintro ⟨_, document, member, shown⟩
    obtain ⟨course, _, _, _, about⟩ := (belong document member).about rfl
    exact ⟨course, document, member, about.course, shown⟩
  · rintro ⟨course, filed⟩
    have fits := (filed.isSigned64 belong).2
    obtain ⟨document, member, under⟩ := filed
    exact ⟨fits, document, member, under.session⟩

end Filed

namespace Installation

open Effect (Settled)
open Reconciliation (inventory mem_plan_iff requestedCourses sessionIds IngestedBefore)

variable {σ : Type} {installation : Installation σ} {begun : σ} {stamp : Instant}

/-- The courses that a run from the given state asks for. -/
def requested (installation : Installation σ) (begun : σ) : List Int :=
  requestedCourses installation.snapshot (inventory installation.backend begun).courses
    (inventory installation.backend begun).sessions

/-- A session is filed under a course if the course owns it and is asked for, or if it was filed
there before and both are still known. -/
def FiledAfter (installation : Installation σ) (begun : σ) (course session : Int) : Prop :=
  ((session, course) ∈ installation.snapshot.sessionCourseIds ∧
      course ∈ installation.requested begun) ∨
    Filed installation.backend begun course session ∧
      course ∈ installation.snapshot.courseIds ∧ session ∈ sessionIds installation.snapshot

theorem exists_mem_courseDocuments {snapshot : Snapshot} {ids : List Int} {session course : Int}
    (owned : (session, course) ∈ snapshot.sessionCourseIds) (asked : course ∈ ids) :
    ∃ document ∈ snapshot.courseDocuments ids,
      CompositeCourse.IsAbout document course session := by
  obtain ⟨composite, known, among⟩ := List.mem_flatMap.mp owned
  obtain ⟨source, inside, same⟩ := List.mem_map.mp among
  obtain ⟨rfl, rfl⟩ := Prod.mk.inj same
  refine ⟨composite.document source, ?_, CompositeCourse.isAbout_document composite source⟩
  exact List.mem_flatMap.mpr ⟨composite, List.mem_filter.mpr ⟨known, by simpa using asked⟩,
    List.mem_map_of_mem inside⟩

theorem brings_session_iff {course session : Int} :
    (∃ effect ∈ (installation.plan stamp begun).map installation.effect,
      effect.Brings CurriculumIndexer.indexName (Fields.IsUnder course session)) ↔
      (session, course) ∈ installation.snapshot.sessionCourseIds ∧
        course ∈ installation.requested begun := by
  constructor
  · rintro ⟨_, taken, brings⟩
    obtain ⟨message, planned, rfl⟩ := List.mem_map.mp taken
    have target := target_of_index_eq (Effect.index_eq_of_brings brings)
    rcases IndexMessage.exists_of_target_curriculum target with
      ⟨ids, time, rfl⟩ | ⟨_, rfl⟩ | ⟨_, rfl⟩
    · obtain ⟨portion, rfl⟩ := mem_plan_iff.mp planned
      obtain ⟨_, document, written, under⟩ := brings
      obtain ⟨_, _, owned, inside, about⟩ := Reconciliation.exists_isAbout written
      obtain ⟨rfl, rfl⟩ := about.eq_of_isUnder under
      exact ⟨owned, mem_of_mem_batches portion inside⟩
    · exact brings.elim
    · exact brings.elim
  · rintro ⟨owned, asked⟩
    obtain ⟨ids, portion, inside⟩ := exists_mem_batches asked
    have planned : .indexCourses ids stamp ∈ installation.plan stamp begun :=
      mem_plan_iff.mpr ⟨portion, rfl⟩
    obtain ⟨document, written, about⟩ := exists_mem_courseDocuments owned inside
    exact ⟨_, List.mem_map_of_mem planned, rfl, document, written, about.course, about.session⟩

/-- The plan removes the documents of courses and of sessions that are gone. -/
theorem spares_session_iff {fields : Fields} {course session : Int}
    (under : fields.IsUnder course session)
    (present : course ∈ (inventory installation.backend begun).courses)
    (present' : session ∈ (inventory installation.backend begun).sessions) :
    (∀ effect ∈ (installation.plan stamp begun).map installation.effect,
      ¬ effect.Removes CurriculumIndexer.indexName fields) ↔
      course ∈ installation.snapshot.courseIds ∧ session ∈ sessionIds installation.snapshot := by
  constructor
  · intro spared
    constructor
    · by_contra unknown
      have planned : .deleteCourse course ∈ installation.plan stamp begun :=
        mem_plan_iff.mpr (by simp [Reconciliation.IsPlanned, Reconciliation.staleCourses, present,
          unknown])
      exact spared _ (List.mem_map_of_mem planned) ⟨rfl, under.course⟩
    · by_contra unknown
      have planned : .deleteSession session ∈ installation.plan stamp begun :=
        mem_plan_iff.mpr (by simp [Reconciliation.IsPlanned, Reconciliation.staleSessions, present',
          unknown])
      exact spared _ (List.mem_map_of_mem planned) ⟨rfl, under.session⟩
  · rintro ⟨known, known'⟩ _ taken removes
    obtain ⟨message, planned, rfl⟩ := List.mem_map.mp taken
    have target := target_of_index_eq (Effect.index_eq_of_removes removes)
    rcases IndexMessage.exists_of_target_curriculum target with
      ⟨_, _, rfl⟩ | ⟨other, rfl⟩ | ⟨other, rfl⟩
    · exact removes.elim
    · have stale := mem_plan_iff.mp planned
      obtain rfl := Json.integer.inj (Option.some.inj (under.course.symm.trans removes.2))
      simp [Reconciliation.IsPlanned, Reconciliation.staleCourses, known] at stale
    · have stale := mem_plan_iff.mp planned
      obtain rfl := Json.integer.inj (Option.some.inj (under.session.symm.trans removes.2))
      simp [Reconciliation.IsPlanned, Reconciliation.staleSessions, known'] at stale

section Outcome

variable {last : Interplay σ ReconciliationReport} {report : ReconciliationReport}

theorem settled_curriculum
    (distinct : installation.snapshot.DistinctIn CurriculumIndexer.indexName)
    (fits : installation.snapshot.Fits)
    (before : IngestedBefore installation.backend begun (installation.stamp begun))
    (concluded : installation.Concluded begun last (.ok report))
    (well : ∀ entry ∈ last.handled, entry.2 = .ok true) :
    Settled installation.backend CurriculumIndexer.indexName begun
      ((installation.plan (installation.stamp begun) begun).map installation.effect) last.world :=
  concluded.settled_plan well ⟨distinct, fun _ planned _ =>
    Reconciliation.isFresh_of_mem_plan fits (fun _ => before) planned⟩

theorem belongs_of_settled (exact : installation.backend.Exact)
    (fits : installation.snapshot.Fits) (orderly : Orderly installation.backend begun) {state : σ}
    (settled : Settled installation.backend CurriculumIndexer.indexName begun
      ((installation.plan stamp begun).map installation.effect) state) :
    ∀ document ∈ installation.backend.documents state CurriculumIndexer.indexName,
      Belongs CurriculumIndexer.indexName document := by
  refine settled.forall_document exact (fun same belongs => belongs.of_lasting_eq same)
    (orderly CurriculumIndexer.indexName) fun documents taken document written => ?_
  obtain ⟨message, _, same⟩ := List.mem_map.mp taken
  have target := target_of_index_eq (congrArg Effect.index same)
  rcases IndexMessage.exists_of_target_curriculum target with ⟨ids, time, rfl⟩ | ⟨_, rfl⟩ | ⟨_, rfl⟩
  · obtain rfl := (Effect.write.inj same).2
    obtain ⟨composite, inside, among⟩ := List.mem_flatMap.mp written
    obtain ⟨session, member, rfl⟩ := List.mem_map.mp among
    have known := List.mem_of_mem_filter inside
    exact belongs_of_isAbout (fits.courses composite known)
      (fits.sessions composite known session member)
      (CompositeCourse.isAbout_document composite session)
  · cases same
  · cases same

/-- The effects of the plan decide how sessions are filed. -/
theorem filed_iff (exact : installation.backend.Exact)
    (orderly : Orderly installation.backend begun) {state : σ}
    (settled : Settled installation.backend CurriculumIndexer.indexName begun
      ((installation.plan stamp begun).map installation.effect) state) {course session : Int} :
    Filed installation.backend state course session ↔
      installation.FiledAfter begun course session := by
  have belong := orderly CurriculumIndexer.indexName
  refine (settled.exists_document_iff exact Fields.IsUnder.of_lasting_eq ?_).trans
    (or_congr brings_session_iff ⟨?_, ?_⟩)
  · rintro document member under _ taken writes
    obtain ⟨message, _, rfl⟩ := List.mem_map.mp taken
    have target := target_of_index_eq (Effect.index_eq_of_writes writes)
    rcases IndexMessage.exists_of_target_curriculum target with
      ⟨ids, time, rfl⟩ | ⟨_, rfl⟩ | ⟨_, rfl⟩
    · obtain ⟨_, twin, written, same⟩ := writes
      obtain ⟨_, _, _, _, about⟩ := Reconciliation.exists_isAbout written
      obtain ⟨_, _, _, _, about'⟩ := (belong document member).about rfl
      obtain ⟨rfl, rfl⟩ := about.eq_of_id_eq about' same
      obtain ⟨rfl, rfl⟩ := about'.eq_of_isUnder under
      exact ⟨rfl, twin, written, about.course, about.session⟩
    · exact writes.elim
    · exact writes.elim
  · rintro ⟨document, member, under, spared⟩
    have filed : Filed installation.backend begun course session := ⟨document, member, under⟩
    exact ⟨filed, (spares_session_iff under ((mem_courses_iff belong).mpr ⟨session, filed⟩)
      ((mem_sessions_iff belong).mpr ⟨course, filed⟩)).mp spared⟩
  · rintro ⟨filed, known⟩
    obtain ⟨document, member, under⟩ := filed
    have filed : Filed installation.backend begun course session := ⟨document, member, under⟩
    exact ⟨document, member, under, (spares_session_iff under
      ((mem_courses_iff belong).mpr ⟨session, filed⟩)
      ((mem_sessions_iff belong).mpr ⟨course, filed⟩)).mpr known⟩

/-- The indexed sessions are those of the snapshot. -/
def HoldsSessions (installation : Installation σ) (state : σ) : Prop :=
  ∀ session, session ∈ (inventory installation.backend state).sessions ↔
    session ∈ sessionIds installation.snapshot

/-- The indexed courses are those of the snapshot that have a session. -/
def HoldsCourses (installation : Installation σ) (state : σ) : Prop :=
  ∀ course, course ∈ (inventory installation.backend state).courses ↔
    ∃ session, (session, course) ∈ installation.snapshot.sessionCourseIds

/-- How sessions are filed after a run that began in a state, and when that is what the snapshot
says. -/
structure Refiled (installation : Installation σ) (begun state : σ) : Prop where
  /-- The earlier filing decides how the sessions are filed. -/
  filed : ∀ course session, Filed installation.backend state course session ↔
    installation.FiledAfter begun course session
  /-- The sessions are right if each was filed under a known course or its course was asked for. -/
  sessions : installation.HoldsSessions state ↔
    ∀ session course, (session, course) ∈ installation.snapshot.sessionCourseIds →
      course ∈ installation.requested begun ∨
        ∃ other ∈ installation.snapshot.courseIds, Filed installation.backend begun other session
  /-- The courses are right if no known session was filed under a known course that has none any
  more, and each course with sessions was asked for or had a known session filed under it. -/
  courses : installation.HoldsCourses state ↔
    (∀ course ∈ installation.snapshot.courseIds, ∀ session ∈ sessionIds installation.snapshot,
        Filed installation.backend begun course session →
          ∃ other, (other, course) ∈ installation.snapshot.sessionCourseIds) ∧
      ∀ session course, (session, course) ∈ installation.snapshot.sessionCourseIds →
        course ∈ installation.requested begun ∨
          ∃ other ∈ sessionIds installation.snapshot, Filed installation.backend begun course other
  /-- If no known session was filed under another course than its own, all is right. -/
  unmoved : (∀ course, ∀ session ∈ sessionIds installation.snapshot,
      Filed installation.backend begun course session →
        (session, course) ∈ installation.snapshot.sessionCourseIds) →
    installation.HoldsSessions state ∧ installation.HoldsCourses state

theorem mem_sessionIds_iff {snapshot : Snapshot} {session : Int} :
    session ∈ sessionIds snapshot ↔ ∃ course, (session, course) ∈ snapshot.sessionCourseIds := by
  simp [sessionIds]

theorem eq_of_mem_sessionCourseIds {snapshot : Snapshot}
    (distinct : snapshot.DistinctIn CurriculumIndexer.indexName) {session course other : Int}
    (owned : (session, course) ∈ snapshot.sessionCourseIds)
    (owned' : (session, other) ∈ snapshot.sessionCourseIds) : course = other :=
  (Prod.mk.inj (List.inj_on_of_nodup_map (distinct.sessions rfl) owned owned' rfl)).2

variable {state : σ}

theorem holdsSessions_iff
    (distinct : installation.snapshot.DistinctIn CurriculumIndexer.indexName)
    (belong : ∀ document ∈ installation.backend.documents state CurriculumIndexer.indexName,
      Belongs CurriculumIndexer.indexName document)
    (filed : ∀ course session, Filed installation.backend state course session ↔
      installation.FiledAfter begun course session) :
    installation.HoldsSessions state ↔
      ∀ session course, (session, course) ∈ installation.snapshot.sessionCourseIds →
        course ∈ installation.requested begun ∨
          ∃ other ∈ installation.snapshot.courseIds,
            Filed installation.backend begun other session := by
  constructor
  · intro holds session course owned
    obtain ⟨other, under⟩ := (mem_sessions_iff belong).mp
      ((holds session).mpr (mem_sessionIds_iff.mpr ⟨course, owned⟩))
    rcases (filed other session).mp under with ⟨owned', asked⟩ | ⟨earlier, known, _⟩
    · exact .inl (eq_of_mem_sessionCourseIds distinct owned owned' ▸ asked)
    · exact .inr ⟨other, known, earlier⟩
  · intro kept session
    rw [mem_sessions_iff belong]
    constructor
    · rintro ⟨course, under⟩
      rcases (filed course session).mp under with ⟨owned, _⟩ | ⟨_, _, known⟩
      · exact mem_sessionIds_iff.mpr ⟨course, owned⟩
      · exact known
    · intro known
      obtain ⟨course, owned⟩ := mem_sessionIds_iff.mp known
      rcases kept session course owned with asked | ⟨other, inside, earlier⟩
      · exact ⟨course, (filed course session).mpr (.inl ⟨owned, asked⟩)⟩
      · exact ⟨other, (filed other session).mpr (.inr ⟨earlier, inside, known⟩)⟩

theorem holdsCourses_iff
    (belong : ∀ document ∈ installation.backend.documents state CurriculumIndexer.indexName,
      Belongs CurriculumIndexer.indexName document)
    (filed : ∀ course session, Filed installation.backend state course session ↔
      installation.FiledAfter begun course session) :
    installation.HoldsCourses state ↔
      (∀ course ∈ installation.snapshot.courseIds, ∀ session ∈ sessionIds installation.snapshot,
          Filed installation.backend begun course session →
            ∃ other, (other, course) ∈ installation.snapshot.sessionCourseIds) ∧
        ∀ session course, (session, course) ∈ installation.snapshot.sessionCourseIds →
          course ∈ installation.requested begun ∨
            ∃ other ∈ sessionIds installation.snapshot,
              Filed installation.backend begun course other := by
  constructor
  · intro holds
    constructor
    · intro course known session known' earlier
      exact (holds course).mp ((mem_courses_iff belong).mpr
        ⟨session, (filed course session).mpr (.inr ⟨earlier, known, known'⟩)⟩)
    · intro session course owned
      obtain ⟨other, under⟩ := (mem_courses_iff belong).mp ((holds course).mpr ⟨session, owned⟩)
      rcases (filed course other).mp under with ⟨_, asked⟩ | ⟨earlier, _, known⟩
      · exact .inl asked
      · exact .inr ⟨other, known, earlier⟩
  · rintro ⟨emptied, kept⟩ course
    rw [mem_courses_iff belong]
    constructor
    · rintro ⟨session, under⟩
      rcases (filed course session).mp under with ⟨owned, _⟩ | ⟨earlier, known, known'⟩
      · exact ⟨session, owned⟩
      · exact emptied course known session known' earlier
    · rintro ⟨session, owned⟩
      rcases kept session course owned with asked | ⟨other, known, earlier⟩
      · exact ⟨session, (filed course session).mpr (.inl ⟨owned, asked⟩)⟩
      · exact ⟨other, (filed course other).mpr (.inr ⟨earlier,
          Reconciliation.mem_courseIds_of_mem_sessionCourseIds owned, known⟩)⟩

/-- A session that is not filed anywhere has its course asked for. -/
theorem mem_requested_or_filed
    (distinct : installation.snapshot.DistinctIn CurriculumIndexer.indexName)
    (belong : ∀ document ∈ installation.backend.documents begun CurriculumIndexer.indexName,
      Belongs CurriculumIndexer.indexName document) {session course : Int}
    (owned : (session, course) ∈ installation.snapshot.sessionCourseIds) :
    course ∈ installation.requested begun ∨
      ∃ other, Filed installation.backend begun other session := by
  by_cases present : session ∈ (inventory installation.backend begun).sessions
  · exact .inr ((mem_sessions_iff belong).mp present)
  · exact .inl ((Reconciliation.mem_requestedCourses_iff distinct).mpr
      (.inr ⟨session, owned, present⟩))

/-- After a run that went well the sessions are filed as the earlier filing decides, and the ids are
those of the snapshot unless a session has moved to another course. -/
theorem refiled_of_incremental (exact : installation.backend.Exact)
    (distinct : installation.snapshot.DistinctIn CurriculumIndexer.indexName)
    (fits : installation.snapshot.Fits) (reachable : Reachable installation.backend begun)
    (before : IngestedBefore installation.backend begun (installation.stamp begun))
    (reached : installation.Reaches begun last) (ends : last.Ends (.ok report))
    (well : ∀ entry ∈ last.handled, entry.2 = .ok true) :
    installation.Refiled begun last.world := by
  have orderly := reachable.orderly exact
  have settled := settled_curriculum distinct fits before (reached.concluded exact fits ends) well
  have belong := belongs_of_settled exact fits orderly settled
  have filed : ∀ course session, Filed installation.backend last.world course session ↔
      installation.FiledAfter begun course session :=
    fun course session => filed_iff exact orderly settled
  have sessions := holdsSessions_iff distinct belong filed
  have courses := holdsCourses_iff belong filed
  refine ⟨filed, sessions, courses, fun unmoved => ⟨sessions.mpr ?_, courses.mpr ⟨?_, ?_⟩⟩⟩
  · intro session course owned
    rcases mem_requested_or_filed distinct (orderly _) owned with asked | ⟨other, earlier⟩
    · exact .inl asked
    · have owned' := unmoved other session (mem_sessionIds_iff.mpr ⟨course, owned⟩) earlier
      exact .inr ⟨other, Reconciliation.mem_courseIds_of_mem_sessionCourseIds owned', earlier⟩
  · intro course _ session known earlier
    exact ⟨session, unmoved course session known earlier⟩
  · intro session course owned
    rcases mem_requested_or_filed distinct (orderly _) owned with asked | ⟨other, earlier⟩
    · exact .inl asked
    · have known := mem_sessionIds_iff.mpr ⟨course, owned⟩
      obtain rfl := eq_of_mem_sessionCourseIds distinct owned (unmoved other session known earlier)
      exact .inr ⟨session, known, earlier⟩

end Outcome

namespace Sample

theorem filed_holding_iff {files : String → Except IndexingError (Option ByteString)}
    {snapshot : Snapshot} (distinct : snapshot.DistinctIn CurriculumIndexer.indexName)
    {before now : Instant} {course session : Int} :
    Filed (Memory.backend files) (Memory.holding snapshot before now) course session ↔
      (session, course) ∈ snapshot.sessionCourseIds := by
  constructor
  · rintro ⟨document, member, under⟩
    obtain ⟨source, inside, _, fields⟩ := Memory.exists_of_mem_holding files member
    obtain ⟨_, _, owned, _, about⟩ := Reconciliation.exists_isAbout inside
    have written : source.source.IsUnder course session := by
      refine under.of_lasting_eq ?_
      rw [fields, Fields.lasting_insert_time]
    obtain ⟨rfl, rfl⟩ := about.eq_of_isUnder written
    exact owned
  · intro owned
    obtain ⟨document, inside, about⟩ := exists_mem_courseDocuments owned
      (Reconciliation.mem_courseIds_of_mem_sessionCourseIds owned)
    obtain ⟨fields, present, same⟩ :=
      Option.map_eq_some_iff.mp (Memory.lasting_holding files distinct inside)
    have under : document.source.IsUnder course session := ⟨about.course, about.session⟩
    exact ⟨_, Backend.mem_documents_of_stored (Memory.exact_backend files) present,
      under.of_lasting_eq same.symm⟩

theorem filed_begun_iff (snapshot : Snapshot) {course session : Int} :
    Filed (system snapshot).backend Sample.begun course session ↔
      (session, course) ∈ earlier.sessionCourseIds :=
  filed_holding_iff (distinct_earlier.within _)

/-- In the later sample no session has moved, so that a run brings all in line. -/
theorem refiled_after_begun :
    ∃ last report, (system current).Reaches Sample.begun last ∧ last.Ends (.ok report) ∧
      (system current).Refiled Sample.begun last.world ∧
        (system current).HoldsSessions last.world ∧ (system current).HoldsCourses last.world := by
  obtain ⟨last, report, reached, ends, well⟩ :=
    exists_success_of_begun fits_current
  have refiled := refiled_of_incremental (Memory.exact_backend _) (distinct_current.within _)
    fits_current (reachable_begun current) (ingestedBefore_begun current) reached ends well
  refine ⟨last, report, reached, ends, refiled, refiled.unmoved fun course session _ filed => ?_⟩
  have owned := (filed_begun_iff current).mp filed
  have earlier_subset : earlier.sessionCourseIds ⊆ current.sessionCourseIds := by decide
  exact earlier_subset owned

/-- The first course is gone, and its session belongs to the second one. -/
def rearranged : Snapshot where
  courses := [⟨{ id := 2, title := "Physiology" }, [{ id := 20 }, { id := 10 }]⟩]

theorem distinct_rearranged : rearranged.Distinct :=
  ⟨by decide, by decide, by decide, by decide⟩

theorem fits_rearranged : rearranged.Fits :=
  ⟨by decide, by decide, by decide⟩

theorem notMem_requested : 2 ∉ (system rearranged).requested Sample.begun := by
  have belong := (reachable_begun rearranged).orderly (Memory.exact_backend _)
    CurriculumIndexer.indexName
  have present : 2 ∈ (inventory (system rearranged).backend Sample.begun).courses :=
    (mem_courses_iff belong).mpr ⟨20, (filed_begun_iff rearranged).mpr (by decide)⟩
  have first : 10 ∈ (inventory (system rearranged).backend Sample.begun).sessions :=
    (mem_sessions_iff belong).mpr ⟨1, (filed_begun_iff rearranged).mpr (by decide)⟩
  have second : 20 ∈ (inventory (system rearranged).backend Sample.begun).sessions :=
    (mem_sessions_iff belong).mpr ⟨2, (filed_begun_iff rearranged).mpr (by decide)⟩
  intro asked
  rcases (Reconciliation.mem_requestedCourses_iff (distinct_rearranged.within _)).mp asked with
    ⟨_, missing⟩ | ⟨session, owned, missing⟩
  · exact missing present
  · have known : session ∈ [20, 10] := (by decide : sessionIds rearranged = [20, 10]) ▸
      mem_sessionIds_iff.mpr ⟨2, owned⟩
    rcases List.mem_pair.mp known with rfl | rfl
    · exact missing second
    · exact missing first

/-- A session that has moved from a course that is gone is lost, though all goes well. -/
theorem exists_lost_session :
    rearranged.Distinct ∧ Reachable (system rearranged).backend Sample.begun ∧
      IngestedBefore (system rearranged).backend Sample.begun
        ((system rearranged).stamp Sample.begun) ∧
      ∃ last report, (system rearranged).Reaches Sample.begun last ∧ last.Ends (.ok report) ∧
        (∀ entry ∈ last.handled, entry.2 = .ok true) ∧
        ¬ (system rearranged).HoldsSessions last.world := by
  have exact : (system rearranged).backend.Exact := Memory.exact_backend _
  have reachable := reachable_begun rearranged
  have before := ingestedBefore_begun rearranged
  obtain ⟨last, report, reached, ends, well⟩ :=
    exists_success_of_begun fits_rearranged
  refine ⟨distinct_rearranged, reachable, before, last, report, reached, ends, well, ?_⟩
  have orderly := reachable.orderly exact
  have settled := settled_curriculum (distinct_rearranged.within _) fits_rearranged before
    (reached.concluded exact fits_rearranged ends) well
  have belong := belongs_of_settled exact fits_rearranged orderly settled
  rw [holdsSessions_iff (distinct_rearranged.within _) belong
    fun _ _ => filed_iff exact orderly settled]
  intro kept
  rcases kept 10 2 (by decide) with asked | ⟨course, known, filed⟩
  · exact notMem_requested asked
  · have owned := (filed_begun_iff rearranged).mp filed
    obtain rfl : course = 2 := List.mem_singleton.mp known
    exact absurd owned (by decide)

end Sample

end Installation
end LearningIndex
