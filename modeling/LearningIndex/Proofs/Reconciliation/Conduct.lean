import LearningIndex.Proofs.Handling
import LearningIndex.Proofs.Reconciliation.Inventory

/-!
# A run beside its worker

While a run goes on, its worker changes the indexes that the messages handed over so far are about,
and no others.  Every index is listed before the first message about it is handed over, so each
listing shows the index as it was when the run began, and the messages of the run follow from the
state at its beginning.
-/

namespace LearningIndex

open Calendar (Instant)

variable {σ : Type} {backend : Backend σ}

namespace Producer

/-- Answers requests as the services do, and keeps a log of the messages that are handed over. -/
def logged (serve : (request : Service.Request) → σ → Service.Reply request × σ) :
    (request : Dispatching.Request) → σ × List IndexMessage →
      Dispatching.Reply request × (σ × List IndexMessage)
  | .service request, (world, log) => ((serve request world).1, (serve request world).2, log)
  | .dispatch message, (world, log) => (.ok (), world, log ++ [message])

/-- Others hand over nothing, and change only indexes that some message of the log is about. -/
structure Bystanding (backend : Backend σ) (before after : σ × List IndexMessage) : Prop where
  log : after.2 = before.2
  steady : backend.Steady (fun index => ∀ message ∈ before.2, message.target ≠ index)
    before.1 after.1

/-- No document changes, and the log grows to a part of the planned messages. -/
structure Handing (backend : Backend σ) (planned : List IndexMessage)
    (before after : σ × List IndexMessage) : Prop where
  documents : backend.SameDocuments before.1 after.1
  grown : before.2 <+: after.2
  planned : after.2 <+: planned

/-- The log grows, and an index that no message of it is about is as before. -/
structure Sparing (backend : Backend σ) (before after : σ × List IndexMessage) : Prop where
  grown : before.2 <+: after.2
  documents : ∀ index, (∀ message ∈ after.2, message.target ≠ index) →
    backend.documents after.1 index = backend.documents before.1 index

theorem bystanding_refl (backend : Backend σ) (state : σ × List IndexMessage) :
    Bystanding backend state state :=
  ⟨rfl, backend.steady_refl _ state.1⟩

theorem Sparing.trans {before middle after : σ × List IndexMessage}
    (first : Sparing backend before middle) (second : Sparing backend middle after) :
    Sparing backend before after where
  grown := first.grown.trans second.grown
  documents index untouched := by
    rw [second.documents index untouched]
    exact first.documents index fun message member =>
      untouched message (second.grown.subset member)

theorem Bystanding.trans {before middle after : σ × List IndexMessage}
    (first : Bystanding backend before middle) (second : Bystanding backend middle after) :
    Bystanding backend before after where
  log := second.log.trans first.log
  steady := first.steady.trans (first.log ▸ second.steady)

theorem Bystanding.sparing {before after : σ × List IndexMessage}
    (move : Bystanding backend before after) : Sparing backend before after where
  grown := move.log ▸ List.prefix_rfl
  documents index untouched := move.steady.documents index (move.log ▸ untouched)

theorem Handing.sparing {planned : List IndexMessage} {before after : σ × List IndexMessage}
    (move : Handing backend planned before after) : Sparing backend before after where
  grown := move.grown
  documents index _ := move.documents index

variable {planned log : List IndexMessage}

theorem ofTask_ensures {α : Type} {task : Task α} {ending : Except IndexingError α → σ → Prop}
    {world : σ} (within : log <+: planned)
    (ensured : Program.Ensures backend.serve
      (backend.Steady fun index => ∀ message ∈ log, message.target ≠ index)
      backend.SameDocuments ending task world) :
    Program.Ensures (logged backend.serve) (Bystanding backend) (Handing backend planned)
      (fun outcome after => ending outcome after.1 ∧ after.2 = log) (ofTask task) (world, log) := by
  induction task generalizing world with
  | done outcome =>
      rintro ⟨later, _⟩ ⟨rfl, steady⟩
      exact ⟨ensured later steady, rfl⟩
  | ask request next ih =>
      rintro ⟨later, _⟩ ⟨rfl, steady⟩
      obtain ⟨kept, rest⟩ := ensured later steady
      exact ⟨⟨kept, List.prefix_rfl, within⟩, ih _ rest⟩

theorem dispatchAll_ensures {messages : List IndexMessage} (within : log ++ messages <+: planned)
    (world : σ) :
    Program.Ensures (logged backend.serve) (Bystanding backend) (Handing backend planned)
      (fun outcome after => outcome = .ok () ∧ after.2 = log ++ messages)
      (dispatchAll messages) (world, log) := by
  induction messages generalizing log world with
  | nil =>
      rintro ⟨later, _⟩ ⟨rfl, _⟩
      exact ⟨rfl, (List.append_nil _).symm⟩
  | cons message rest ih =>
      rintro ⟨later, _⟩ ⟨rfl, _⟩
      rw [List.append_cons] at within
      refine ⟨⟨backend.sameDocuments_refl later, List.prefix_append _ [message],
        (List.prefix_append _ _).trans within⟩, ?_⟩
      rw [List.append_cons]
      exact ih within later

end Producer

namespace Reconciliation

open Producer (Bystanding Handing Sparing logged)

/-- The outcome of a run and the messages that it hands over, by what comes of its listings. -/
def conduct (snapshot : Snapshot) (stamp : Instant)
    (materials courses sessions : Except IndexingError (List Int))
    (descriptors : Except IndexingError (List String)) :
    Except IndexingError ReconciliationReport × List IndexMessage :=
  match materials with
  | .error error => (.error error, [])
  | .ok materials =>
    match courses, sessions with
    | .error error, _ => (.error error, materialPlan snapshot materials)
    | .ok _, .error error => (.error error, materialPlan snapshot materials)
    | .ok courses, .ok sessions =>
      match descriptors with
      | .error error =>
        (.error error,
          materialPlan snapshot materials ++ coursePlan snapshot stamp courses sessions)
      | .ok descriptors =>
        (.ok (planReport snapshot stamp ⟨materials, courses, sessions, descriptors⟩),
          plan snapshot stamp ⟨materials, courses, sessions, descriptors⟩)

/-- How a run ends that began in the given state, and what it has handed over: its listings show the
indexes as they were then. -/
def RunEnds (backend : Backend σ) (snapshot : Snapshot) (stamp : Instant) (begun : σ)
    (outcome : Except IndexingError ReconciliationReport) (log : List IndexMessage) : Prop :=
  ∃ materials courses sessions descriptors,
    Catalog.Lists backend (backend.documents begun LearningMaterialIndexer.indexName)
        (inventory backend begun).materials materials ∧
      Catalog.Lists backend (backend.documents begun CurriculumIndexer.indexName)
        (inventory backend begun).courses courses ∧
      Catalog.Lists backend (backend.documents begun CurriculumIndexer.indexName)
        (inventory backend begun).sessions sessions ∧
      Catalog.Lists backend (backend.documents begun MeshIndexer.indexName)
        (inventory backend begun).descriptors descriptors ∧
      (outcome, log) = conduct snapshot stamp materials courses sessions descriptors

variable {snapshot : Snapshot} {stamp : Instant} {begun : σ}

/-- A run that succeeds hands over the plan. -/
theorem RunEnds.eq_plan {report : ReconciliationReport} {log : List IndexMessage}
    (ends : RunEnds backend snapshot stamp begun (.ok report) log) :
    log = plan snapshot stamp (inventory backend begun) ∧
      report = planReport snapshot stamp (inventory backend begun) := by
  obtain ⟨materials | materials, courses | courses, sessions | sessions, descriptors | descriptors,
    first, second, third, fourth, same⟩ := ends
  all_goals
    obtain ⟨outcome, rfl⟩ := Prod.mk.inj same
    cases outcome
  rw [first.sound materials rfl, second.sound courses rfl, third.sound sessions rfl,
    fourth.sound descriptors rfl]
  exact ⟨rfl, rfl⟩

/-- Without failures the state at the beginning decides what a run hands over and how it ends. -/
theorem RunEnds.unique (never : backend.NeverFails)
    {outcome outcome' : Except IndexingError ReconciliationReport} {log log' : List IndexMessage}
    (ends : RunEnds backend snapshot stamp begun outcome log)
    (ends' : RunEnds backend snapshot stamp begun outcome' log') :
    outcome = outcome' ∧ log = log' := by
  obtain ⟨_, _, _, _, first, second, third, fourth, same⟩ := ends
  obtain ⟨_, _, _, _, first', second', third', fourth', same'⟩ := ends'
  rw [first.complete never, second.complete never, third.complete never,
    fourth.complete never] at same
  rw [first'.complete never, second'.complete never, third'.complete never,
    fourth'.complete never] at same'
  exact Prod.mk.inj (same.trans same'.symm)

theorem RunEnds.isOk (never : backend.NeverFails)
    (listable : ∀ index,
      (backend.documents begun index).length ≤ Catalog.walkLimit Catalog.pageLimit)
    {outcome : Except IndexingError ReconciliationReport} {log : List IndexMessage}
    (ends : RunEnds backend snapshot stamp begun outcome log) : ∃ report, outcome = .ok report := by
  obtain ⟨_, _, _, _, first, second, third, fourth, same⟩ := ends
  rw [first.complete never, second.complete never, third.complete never,
    fourth.complete never] at same
  simp only [Catalog.listing, if_pos (listable _)] at same
  exact ⟨_, (Prod.mk.inj same).1⟩

theorem isPrefix_materialPlan (snapshot : Snapshot) (stamp : Instant) (found : Inventory) :
    materialPlan snapshot found.materials <+: plan snapshot stamp found := by
  rw [plan, List.append_assoc]
  exact List.prefix_append _ _

theorem isPrefix_coursePlan (snapshot : Snapshot) (stamp : Instant) (found : Inventory) :
    materialPlan snapshot found.materials ++
        coursePlan snapshot stamp found.courses found.sessions <+:
      plan snapshot stamp found :=
  List.prefix_append _ _

/-- A listing among others, of an index that no message so far is about. -/
theorem listing_ensures {κ : Type} {planned log : List IndexMessage} {task : Task (List κ)}
    {index : String} (values : List Document → List κ) {world : σ} (within : log <+: planned)
    (untouched : ∀ message ∈ log, message.target ≠ index)
    (spared : Sparing backend (begun, []) (world, log))
    (ensured : Program.Ensures backend.serve
      (backend.Steady fun index => ∀ message ∈ log, message.target ≠ index) backend.SameDocuments
      (fun outcome _ => Catalog.Lists backend (backend.documents world index)
        (values (backend.documents world index)) outcome) task world) :
    Program.Ensures (logged backend.serve) (Bystanding backend) (Handing backend planned)
      (fun outcome after => after.2 = log ∧ Sparing backend (begun, []) after ∧
        Catalog.Lists backend (backend.documents begun index)
          (values (backend.documents begun index)) outcome)
      (Producer.ofTask task) (world, log) := by
  rw [spared.documents index untouched] at ensured
  refine (Program.Ensures.and_unchanged (Sparing backend) Sparing.trans Bystanding.sparing
    Handing.sparing spared (Producer.ofTask_ensures within ensured)).mono ?_
  rintro outcome after ⟨⟨lists, same⟩, sparing⟩
  exact ⟨same, sparing, lists⟩

theorem integers_ensures (exact : backend.Exact) {catalog : Catalog}
    (enabled : catalog.enabled = true) (field : String) {planned log : List IndexMessage}
    {world : σ} (within : log <+: planned)
    (untouched : ∀ message ∈ log, message.target ≠ catalog.index)
    (spared : Sparing backend (begun, []) (world, log)) :
    Program.Ensures (logged backend.serve) (Bystanding backend) (Handing backend planned)
      (fun outcome after => after.2 = log ∧ Sparing backend (begun, []) after ∧
        Catalog.Lists backend (backend.documents begun catalog.index)
          (Catalog.ascending (Catalog.keysOf field (backend.documents begun catalog.index)))
          outcome)
      (Producer.ofTask (catalog.distinctIds field)) (world, log) :=
  listing_ensures (fun documents => Catalog.ascending (Catalog.keysOf field documents))
    within untouched spared (Catalog.distinctIds_ensures exact enabled untouched field world)

theorem texts_ensures (exact : backend.Exact) {catalog : Catalog}
    (enabled : catalog.enabled = true) (field : String) {planned log : List IndexMessage}
    {world : σ} (within : log <+: planned)
    (untouched : ∀ message ∈ log, message.target ≠ catalog.index)
    (spared : Sparing backend (begun, []) (world, log)) :
    Program.Ensures (logged backend.serve) (Bystanding backend) (Handing backend planned)
      (fun outcome after => after.2 = log ∧ Sparing backend (begun, []) after ∧
        Catalog.Lists backend (backend.documents begun catalog.index)
          (Catalog.keysOf field (backend.documents begun catalog.index) : List String) outcome)
      (Producer.ofTask (catalog.allIds field)) (world, log) :=
  listing_ensures (Catalog.keysOf field) within untouched spared
    (Catalog.allIds_ensures exact enabled untouched field world)

theorem handing_ensures {planned : List IndexMessage} (log messages : List IndexMessage) {world : σ}
    (within : log ++ messages <+: planned) (spared : Sparing backend (begun, []) (world, log)) :
    Program.Ensures (logged backend.serve) (Bystanding backend) (Handing backend planned)
      (fun outcome after => outcome = .ok () ∧ after.2 = log ++ messages ∧
        Sparing backend (begun, []) after)
      (Producer.dispatchAll messages) (world, log) := by
  refine (Program.Ensures.and_unchanged (Sparing backend) Sparing.trans Bystanding.sparing
    Handing.sparing spared
    (Producer.dispatchAll_ensures within world)).mono ?_
  rintro outcome after ⟨⟨success, same⟩, sparing⟩
  exact ⟨success, same, sparing⟩

/-- Whatever its worker does meanwhile, a run follows from the state in which it began. -/
theorem runIncremental_ensures (exact : backend.Exact) (snapshot : Snapshot) (keepAlive : String)
    (uploadLimit : Nat) (stamp : Instant) {world : σ}
    (spared : Sparing backend (begun, []) (world, [])) :
    Program.Ensures (logged backend.serve) (Bystanding backend)
      (Handing backend (plan snapshot stamp (inventory backend begun)))
      (fun outcome after => RunEnds backend snapshot stamp begun outcome after.2)
      (runIncremental ⟨.of snapshot, .new true keepAlive uploadLimit⟩ stamp) (world, []) := by
  have refl := Producer.bystanding_refl backend
  rw [runIncremental_eq rfl]
  refine Program.Ensures.andThen refl ((integers_ensures exact rfl LearningMaterialIndexer.idField
    List.nil_prefix (by simp) spared).mono ?_)
  rintro (error | materials) ⟨world, _⟩ ⟨rfl, spared, first⟩
  · exact ⟨_, _, _, _, first, Catalog.lists_listing _ _ _, Catalog.lists_listing _ _ _,
      Catalog.lists_listing _ _ _, rfl⟩
  have known : materials = (inventory backend begun).materials := first.sound materials rfl
  subst known
  refine Program.Ensures.andThen refl
    ((handing_ensures [] _ (isPrefix_materialPlan snapshot stamp _) spared).mono ?_)
  rintro _ ⟨world, _⟩ ⟨rfl, rfl, spared⟩
  rw [List.nil_append] at spared ⊢
  -- The worker may be busy with the materials already, but that leaves the other indexes alone.
  have apart : ∀ message ∈ materialPlan snapshot (inventory backend begun).materials,
      message.target ≠ CurriculumIndexer.indexName := fun _ => target_ne_curriculum
  refine Program.Ensures.andThen refl ((integers_ensures exact rfl CurriculumIndexer.courseIdField
    (isPrefix_materialPlan snapshot stamp _) apart spared).mono ?_)
  rintro (error | courses) ⟨world, _⟩ ⟨rfl, spared, second⟩
  · exact ⟨_, _, _, _, first, second, Catalog.lists_listing _ _ _, Catalog.lists_listing _ _ _, rfl⟩
  have known : courses = (inventory backend begun).courses := second.sound courses rfl
  subst known
  refine Program.Ensures.andThen refl ((integers_ensures exact rfl CurriculumIndexer.sessionIdField
    (isPrefix_materialPlan snapshot stamp _) apart spared).mono ?_)
  rintro (error | sessions) ⟨world, _⟩ ⟨rfl, spared, third⟩
  · exact ⟨_, _, _, _, first, second, third, Catalog.lists_listing _ _ _, rfl⟩
  have known : sessions = (inventory backend begun).sessions := third.sound sessions rfl
  subst known
  refine Program.Ensures.andThen refl ((handing_ensures _ _ (isPrefix_coursePlan snapshot stamp _)
    spared).mono ?_)
  rintro _ ⟨world, _⟩ ⟨rfl, rfl, spared⟩
  refine Program.Ensures.andThen refl ((texts_ensures exact rfl MeshIndexer.idField
    (isPrefix_coursePlan snapshot stamp _) (fun _ => target_ne_mesh) spared).mono ?_)
  rintro (error | descriptors) ⟨world, _⟩ ⟨rfl, spared, fourth⟩
  · exact ⟨_, _, _, _, first, second, third, fourth, rfl⟩
  have known : descriptors = (inventory backend begun).descriptors := fourth.sound descriptors rfl
  subst known
  refine Program.Ensures.andThen refl ((handing_ensures _ _ List.prefix_rfl spared).mono ?_)
  rintro _ ⟨world, _⟩ ⟨rfl, rfl, spared⟩
  rintro ⟨later, _⟩ ⟨rfl, _⟩
  exact ⟨_, _, _, _, first, second, third, fourth, rfl⟩

end Reconciliation

end LearningIndex
