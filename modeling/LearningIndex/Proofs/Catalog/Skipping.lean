import LearningIndex.Proofs.Backend.Aggregation
import LearningIndex.Proofs.Catalog.Changes
import LearningIndex.Proofs.Program.Transcript
import Mathlib.Data.List.Infix

/-!
# Which candidates an index holds

The candidates are sent in portions of which none has more candidates than an answer has buckets, so
that no candidate that occurs is dropped from an answer.  What the answers list is looked at only
as far as it was asked for.  An answer without buckets, or with a bucket whose key cannot be read,
is an error.
-/

namespace LearningIndex

open Calendar (Instant)

variable {κ : Type} [Key κ]

/-- The keys of an answer cannot all be read: there are no buckets, or one of them has no key that
stands for an id. -/
def Illegible (κ : Type) [Key κ] (answer : Json) (aggregation : String) : Prop :=
  bucketsOf? answer aggregation = none ∨
    ∃ buckets, bucketsOf? answer aggregation = some buckets ∧
      ∃ bucket ∈ buckets, ∀ id : κ, bucketKey bucket ≠ .ok id

theorem not_illegible_of_aggregationKeys {answer : Json} {aggregation : String} {ids : List κ}
    (read : aggregationKeys answer aggregation = .ok ids) : ¬ Illegible κ answer aggregation := by
  obtain ⟨buckets, found, keys⟩ := aggregationKeys_eq_ok_iff.mp read
  rintro (missing | ⟨_, same, bucket, member, unread⟩)
  · simp [found] at missing
  · obtain rfl := Option.some.inj (found.symm.trans same)
    obtain ⟨id, _, shown⟩ := exists_mem_of_forall₂ keys.flip member
    exact unread id shown

theorem exists_parse_of_bucketKey {bucket : Json} {error : EngineError}
    (failed : (bucketKey bucket : Except EngineError κ) = .error error) :
    ∃ text, error = .parse text := by
  unfold bucketKey at failed
  split at failed
  · rename_i value _
    cases read : (Key.ofJson value : Except Json.Fault κ) with
    | error fault =>
        rw [read] at failed
        exact ⟨_, (Except.error.inj failed).symm⟩
    | ok id => simp [read, Except.mapError] at failed
  · exact ⟨_, (Except.error.inj failed).symm⟩

/-- What goes wrong with the keys of an answer is that it cannot be understood. -/
theorem exists_parse_of_aggregationKeys {answer : Json} {aggregation : String}
    {error : EngineError}
    (failed : (aggregationKeys answer aggregation : Except EngineError (List κ)) = .error error) :
    ∃ text, error = .parse text := by
  unfold aggregationKeys at failed
  split at failed
  · rename_i buckets found
    clear found
    induction buckets with
    | nil => simp [List.mapM_nil, pure, Except.pure] at failed
    | cons bucket rest ih =>
        rw [List.mapM_cons] at failed
        cases one : (bucketKey bucket : Except EngineError κ) with
        | error first =>
            simp only [one, bind, Except.bind, Except.error.injEq] at failed
            exact failed ▸ exists_parse_of_bucketKey one
        | ok id =>
            cases others : (rest.mapM bucketKey : Except EngineError (List κ)) with
            | error later =>
                simp only [one, others, bind, Except.bind, Except.error.injEq] at failed
                subst failed
                exact ih others
            | ok ids => simp [one, others, bind, Except.bind, pure, Except.pure] at failed
  · exact ⟨_, (Except.error.inj failed).symm⟩

namespace Catalog

/-- The request by which one portion of the candidates is looked for. -/
def portionRequest (catalog : Catalog) (field : String) (since : Option (String × Instant))
    (portion : List κ) : Service.Request :=
  .engine (.search ⟨catalog.index, .indexed field (portion.map Key.toJson) since, none⟩)

/-- Some answer of a trace is illegible. -/
def SawIllegible (κ : Type) [Key κ] (field : String) (trace : List (Exchange services)) : Prop :=
  ∃ request answer, ⟨.engine (.search request), .ok answer⟩ ∈ trace ∧ Illegible κ answer field

/-- A search takes the portions one after the other, up to the first one that fails. -/
structure Goes (catalog : Catalog) (field : String) (since : Option (String × Instant))
    (portions : List (List κ)) (trace : List (Exchange services))
    (outcome : Except IndexingError (List κ)) : Prop where
  /-- The portions are asked for in their order. -/
  asked : trace.map (·.request) <+: portions.map (catalog.portionRequest field since)
  complete : ∀ ids, outcome = .ok ids →
    trace.map (·.request) = portions.map (catalog.portionRequest field since)
  refused : SawIllegible κ field trace → ∃ text, outcome = .error (.engine (.parse text))

theorem goes_of_yields_foundIn {catalog : Catalog} {field : String}
    {since : Option (String × Instant)} {portions : List (List κ)}
    {trace : List (Exchange services)} {outcome : Except IndexingError (List κ)}
    (run : (catalog.foundIn field since portions).Yields trace outcome) :
    catalog.Goes field since portions trace outcome := by
  induction portions generalizing trace outcome with
  | nil =>
      obtain ⟨rfl, rfl⟩ := Program.yields_done_iff.mp run
      exact ⟨List.nil_prefix, fun _ _ => rfl, by simp [SawIllegible]⟩
  | cons portion rest ih =>
      obtain ⟨reply, later, rfl, going⟩ := Program.yields_ask_iff.mp run
      clear run
      have one : [catalog.portionRequest field since portion] <+:
          (portion :: rest).map (catalog.portionRequest field since) := ⟨_, rfl⟩
      cases reply with
      | error error =>
          obtain ⟨rfl, rfl⟩ := Program.yields_done_iff.mp going
          refine ⟨one, by simp, ?_⟩
          rintro ⟨request, answer, member, _⟩
          cases List.mem_singleton.mp member
      | ok answer =>
          cases read : (aggregationKeys answer field : Except EngineError (List κ)) with
          | error error =>
              simp only [Except.mapError, Program.done_ok_andThen, Program.ofExcept, read,
                Program.bind_eq_andThen, Program.done_error_andThen] at going
              obtain ⟨rfl, rfl⟩ := Program.yields_done_iff.mp going
              obtain ⟨text, rfl⟩ := exists_parse_of_aggregationKeys read
              exact ⟨one, by simp, fun _ => ⟨text, rfl⟩⟩
          | ok found =>
              simp only [Except.mapError, Program.done_ok_andThen, Program.ofExcept, read,
                Program.bind_eq_andThen, Program.pure_eq_done] at going
              obtain ⟨inner, run, rfl⟩ := Program.yields_andThen_map_iff.mp going
              obtain ⟨asked, complete, refused⟩ := ih run
              refine ⟨List.cons_prefix_cons.mpr ⟨rfl, asked⟩, fun ids success => ?_, ?_⟩
              · cases inner with
                | error error => cases success
                | ok others => exact congrArg _ (complete others rfl)
              · rintro ⟨request, other, member, illegible⟩
                rcases List.mem_cons.mp member with same | member
                · cases same
                  exact absurd illegible (not_illegible_of_aggregationKeys read)
                · obtain ⟨text, rfl⟩ := refused ⟨request, other, member, illegible⟩
                  exact ⟨text, rfl⟩

/-- What is asked for a skip set, and what is made of the answers, whatever they are. -/
structure Skips [DecidableEq κ] (catalog : Catalog) (field : String) (candidates : List κ)
    (since : Option (String × Instant)) (trace : List (Exchange services))
    (outcome : Except IndexingError (SkipSet κ)) : Prop where
  /-- The candidates are asked for in portions that are not too long, all of them if nothing goes
  wrong. -/
  asked : ∃ portions : List (List κ), portions.flatten = candidates ∧
    (∀ portion ∈ portions, portion ≠ [] ∧ portion.length ≤ Query.answerLimit) ∧
      trace.map (·.request) <+: portions.map (catalog.portionRequest field since) ∧
        ∀ skip, outcome = .ok skip →
          trace.map (·.request) = portions.map (catalog.portionRequest field since)
  idle : candidates = [] → trace = []
  within : ∀ skip, outcome = .ok skip → ∀ id, skip.contains id = true → id ∈ candidates
  refused : SawIllegible κ field trace → ∃ text, outcome = .error (.engine (.parse text))

theorem skips_of_yields_skipSet [DecidableEq κ] {catalog : Catalog} {field : String}
    {candidates : List κ} {since : Option (String × Instant)} {trace : List (Exchange services)}
    {outcome : Except IndexingError (SkipSet κ)}
    (run : (catalog.skipSet field candidates since).Yields trace outcome) :
    catalog.Skips field candidates since trace outcome := by
  let portions := batches Query.answerLimit candidates
  have whole : portions.flatten = candidates := flatten_batches _ _
  have short : ∀ portion ∈ portions, portion ≠ [] ∧ portion.length ≤ Query.answerLimit :=
    fun portion member => ⟨ne_nil_of_mem_batches member, length_le_of_mem_batches member⟩
  rw [skipSet, requireEngine] at run
  by_cases enabled : catalog.enabled = true
  · rw [if_pos enabled] at run
    obtain ⟨inner, going, rfl⟩ := Program.yields_andThen_map_iff.mp run
    obtain ⟨asked, complete, refused⟩ := goes_of_yields_foundIn going
    refine ⟨⟨portions, whole, short, asked, fun skip success => ?_⟩, fun nothing => ?_,
      fun skip success id skipped => ?_, fun saw => ?_⟩
    · cases inner with
      | error error => cases success
      | ok found => exact complete found rfl
    · have uncut : batches Query.answerLimit candidates = [] := batches_eq_nil_iff.mpr nothing
      rw [uncut] at asked
      exact List.map_eq_nil_iff.mp (List.prefix_nil.mp asked)
    · cases inner with
      | error error => cases success
      | ok found =>
          rw [← Except.ok.inj success] at skipped
          simp only [SkipSet.contains, SkipSet.ofCandidates, List.contains_eq_mem,
            List.mem_eraseDups, List.mem_filter, decide_eq_true_eq] at skipped
          exact skipped.2
    · obtain ⟨text, rfl⟩ := refused saw
      exact ⟨text, rfl⟩
  · rw [if_neg enabled] at run
    obtain ⟨rfl, rfl⟩ := Program.yields_done_iff.mp run
    exact ⟨⟨portions, whole, short, List.nil_prefix, by simp⟩, fun _ => rfl, by simp,
      by simp [SawIllegible]⟩

section Exact

variable {σ : Type} {backend : Backend σ}

/-- The answer for a portion that is short enough lists the candidates of it that occur. -/
theorem exists_answer_portion (aggregates : backend.Aggregates) (catalog : Catalog) (field : String)
    (since : Option (String × Instant)) {portion : List κ}
    (short : portion.length ≤ Query.answerLimit)
    (legible : ∀ id ∈ portion, Key.ofJson (Key.toJson id) = .ok id) (state : σ) :
    ∃ answer found, (backend.serve (catalog.portionRequest field since portion) state).1 =
        .ok answer ∧ aggregationKeys answer field = .ok found ∧
      ∀ id, id ∈ found ↔
        id ∈ portion ∧ Occurs backend state catalog.index field since (Key.toJson id) := by
  have short : (portion.map (Key.toJson : κ → Json)).length ≤ Query.answerLimit := by
    simpa using short
  obtain ⟨answer, keys, answered, reported, occurring⟩ :=
    aggregates.reports catalog.index field short since state
  have readable : ∀ key ∈ keys, ∃ id : κ, Key.ofJson key = .ok id := by
    intro key member
    obtain ⟨id, inside, rfl⟩ := List.mem_map.mp ((occurring key).mp member).1
    exact ⟨id, legible id inside⟩
  obtain ⟨found, read⟩ := aggregationKeys_isOk reported readable
  refine ⟨answer, found, answered, read, fun id => ⟨fun member => ?_, ?_⟩⟩
  · obtain ⟨key, inside, shown⟩ := mem_of_aggregationKeys reported read id member
    obtain ⟨candidate, occurs⟩ := (occurring key).mp inside
    obtain ⟨own, among, rfl⟩ := List.mem_map.mp candidate
    obtain rfl := Except.ok.inj ((legible own among).symm.trans shown)
    exact ⟨among, occurs⟩
  · rintro ⟨among, occurs⟩
    have inside := (occurring (Key.toJson id)).mpr ⟨List.mem_map_of_mem among, occurs⟩
    have pairs := (aggregationKeys_eq_ok_iff_of_reports reported).mp read
    obtain ⟨other, member, shown⟩ := exists_mem_of_forall₂ pairs.flip inside
    obtain rfl := Except.ok.inj ((legible id among).symm.trans shown)
    exact member

/-- What is found of some candidates while the state moves: what is found occurs at some moment, and
what is not found is missing at some moment. -/
structure Observed (move : σ → σ → Prop) (state after : σ) (occurs : σ → κ → Prop)
    (candidates : List κ) (found : κ → Prop) : Prop where
  /-- What is found is a candidate that occurs at some moment. -/
  present : ∀ id, found id → id ∈ candidates ∧
    ∃ moment, move state moment ∧ move moment after ∧ occurs moment id
  /-- A candidate that is not found is missing at some moment. -/
  absent : ∀ id ∈ candidates, ¬ found id →
    ∃ moment, move state moment ∧ move moment after ∧ ¬ occurs moment id
  moved : move state after

/-- If the documents stay as they are, the moments do not matter. -/
theorem Observed.found_iff {state after : σ} {index field : String}
    {since : Option (String × Instant)} {candidates : List κ} {found : κ → Prop}
    (observed : Observed backend.SameDocuments state after
      (fun moment id => Occurs backend moment index field since (Key.toJson id)) candidates found)
    (id : κ) :
    found id ↔ id ∈ candidates ∧ Occurs backend state index field since (Key.toJson id) := by
  constructor
  · intro known
    obtain ⟨candidate, moment, same, _, occurs⟩ := observed.present id known
    exact ⟨candidate, (occurs_congr (same index)).mp occurs⟩
  · rintro ⟨candidate, occurs⟩
    by_contra unknown
    obtain ⟨moment, same, _, missing⟩ := observed.absent id candidate unknown
    exact missing ((occurs_congr (same index)).mpr occurs)

section Moving

variable {move : σ → σ → Prop}

/-- Portions that are short enough are looked for without a loss, each at its moment. -/
theorem foundIn_observes (aggregates : backend.Aggregates) (tolerates : backend.Tolerates move)
    (catalog : Catalog) (field : String) (since : Option (String × Instant))
    {portions : List (List κ)} (short : ∀ portion ∈ portions, portion.length ≤ Query.answerLimit)
    (legible : ∀ portion ∈ portions, ∀ id ∈ portion, Key.ofJson (Key.toJson id) = .ok id)
    (state : σ) :
    Program.Ensures backend.serve move move
      (fun outcome after => ∃ ids, outcome = .ok ids ∧ Observed move state after
        (fun moment id => Occurs backend moment catalog.index field since (Key.toJson id))
          portions.flatten (· ∈ ids))
      (catalog.foundIn field since portions) state := by
  induction portions generalizing state with
  | nil => exact fun after moved => ⟨[], rfl, by simp, by simp, moved⟩
  | cons portion rest ih =>
      have shortly := short portion List.mem_cons_self
      have legibly := legible portion List.mem_cons_self
      have asked (later : σ) :
          move later (backend.serve (catalog.portionRequest field since portion) later).2 :=
        tolerates.calm (aggregates.kept catalog.index field (portion.map Key.toJson) since later)
      refine Task.engine_andThen_ensures (fun later _ => asked later) ?_ ?_
      · intro later answer moved answered
        obtain ⟨answer', found, answered', read, found_iff⟩ := exists_answer_portion aggregates
          catalog field since shortly legibly later
        obtain rfl := Except.ok.inj (answered.symm.trans answered')
        rw [read]
        change Program.Ensures _ _ _ _ ((catalog.foundIn field since rest).andThen fun others =>
          .done (.ok (found ++ others))) _
        refine Program.Ensures.andThen tolerates.refl ((ih
          (fun other member => short other (List.mem_cons_of_mem portion member))
          (fun other member => legible other (List.mem_cons_of_mem portion member)) _).mono ?_)
        rintro _ after ⟨others, rfl, observed⟩ final settled
        -- Each id keeps the moment at which its portion was answered.
        have begun := tolerates.trans moved (asked later)
        have ended := tolerates.trans observed.moved settled
        refine ⟨found ++ others, rfl, fun id known => ?_, fun id candidate unknown => ?_,
          tolerates.trans begun ended⟩
        · rcases List.mem_append.mp known with own | other
          · obtain ⟨candidate, occurs⟩ := (found_iff id).mp own
            exact ⟨List.mem_flatten_of_mem List.mem_cons_self candidate, later, moved,
              tolerates.trans (asked later) ended, occurs⟩
          · obtain ⟨candidate, moment, before, behind, occurs⟩ := observed.present id other
            exact ⟨List.mem_append_right portion candidate, moment,
              tolerates.trans begun before, tolerates.trans behind settled, occurs⟩
        · obtain ⟨unfound, unknown⟩ := not_or.mp (mt List.mem_append.mpr unknown)
          rcases List.mem_append.mp candidate with own | other
          · exact ⟨later, moved, tolerates.trans (asked later) ended,
              fun occurs => unfound ((found_iff id).mpr ⟨own, occurs⟩)⟩
          · obtain ⟨moment, before, behind, missing⟩ := observed.absent id other unknown
            exact ⟨moment, tolerates.trans begun before, tolerates.trans behind settled, missing⟩
      · intro later error _ failed
        obtain ⟨_, _, answered, _⟩ := exists_answer_portion aggregates catalog field since shortly
          legibly later
        cases failed.symm.trans answered

/-- Over an engine that counts exactly the skip set holds the candidates that occur, each at the
moment at which it was looked for. -/
theorem skipSet_observes [DecidableEq κ] (aggregates : backend.Aggregates)
    (tolerates : backend.Tolerates move) {catalog : Catalog} (enabled : catalog.enabled = true)
    (field : String) {candidates : List κ}
    (legible : ∀ id ∈ candidates, Key.ofJson (Key.toJson id) = .ok id)
    (since : Option (String × Instant)) (state : σ) :
    Program.Ensures backend.serve move move
      (fun outcome after => ∃ skip, outcome = .ok skip ∧ Observed move state after
        (fun moment id => Occurs backend moment catalog.index field since (Key.toJson id))
          candidates (skip.contains · = true))
      (catalog.skipSet field candidates since) state := by
  have short : ∀ portion ∈ batches Query.answerLimit candidates,
      portion.length ≤ Query.answerLimit :=
    fun portion member => length_le_of_mem_batches member
  rw [skipSet, requireEngine_of_enabled enabled]
  change Program.Ensures _ _ _ _ ((catalog.foundIn field since
    (batches Query.answerLimit candidates)).andThen fun found =>
      .done (.ok (SkipSet.ofCandidates candidates found))) _
  refine Program.Ensures.andThen tolerates.refl ((foundIn_observes aggregates tolerates catalog
    field since short
    (fun portion member id inside => legible id (mem_of_mem_batches member inside)) state).mono ?_)
  rintro _ after ⟨ids, rfl, observed⟩ final settled
  have contains_iff (id : κ) :
      (SkipSet.ofCandidates candidates ids).contains id = true ↔ id ∈ ids ∧ id ∈ candidates := by
    simp [SkipSet.contains, SkipSet.ofCandidates]
  rw [flatten_batches] at observed
  refine ⟨.ofCandidates candidates ids, rfl, fun id known => ?_, fun id candidate unknown => ?_,
    tolerates.trans observed.moved settled⟩
  · obtain ⟨candidate, moment, before, behind, occurs⟩ :=
      observed.present id ((contains_iff id).mp known).1
    exact ⟨candidate, moment, before, tolerates.trans behind settled, occurs⟩
  · obtain ⟨moment, before, behind, missing⟩ := observed.absent id candidate fun known =>
      unknown ((contains_iff id).mpr ⟨known, candidate⟩)
    exact ⟨moment, before, tolerates.trans behind settled, missing⟩

end Moving

theorem exists_run_skipSet [DecidableEq κ] (aggregates : backend.Aggregates) {catalog : Catalog}
    (enabled : catalog.enabled = true) (field : String) {candidates : List κ}
    (legible : ∀ id ∈ candidates, Key.ofJson (Key.toJson id) = .ok id)
    (since : Option (String × Instant)) (state : σ) :
    ∃ skip after,
      (catalog.skipSet field candidates since).run backend.serve state = (.ok skip, after) ∧
        backend.SameDocuments state after ∧
          ∀ id, skip.contains id = true ↔ id ∈ candidates ∧
            Occurs backend state catalog.index field since (Key.toJson id) := by
  obtain ⟨skip, success, observed⟩ := (skipSet_observes aggregates backend.tolerates_sameDocuments
    enabled field legible since state).run backend.sameDocuments_refl
  exact ⟨skip, _, Prod.ext success rfl, observed.moved, observed.found_iff⟩

end Exact

/-- A skip set is asked for in portions and, if the engine counts exactly, is what one question for
all candidates with an answer of any length would find. -/
theorem skipSet_finds_candidates [DecidableEq κ] (catalog : Catalog) (field : String)
    (candidates : List κ) (since : Option (String × Instant)) :
    (∀ trace outcome, (catalog.skipSet field candidates since).Yields trace outcome →
      catalog.Skips field candidates since trace outcome) ∧
    ∀ (σ : Type) (backend : Backend σ) (state : σ), backend.Aggregates →
      catalog.enabled = true →
        (∀ id ∈ candidates, Key.ofJson (Key.toJson id) = .ok id) →
          ∃ skip after,
            (catalog.skipSet field candidates since).run backend.serve state = (.ok skip, after) ∧
              ∀ id, skip.contains id = true ↔ id ∈ candidates ∧
                Occurs backend state catalog.index field since (Key.toJson id) := by
  refine ⟨fun _ _ run => skips_of_yields_skipSet run, ?_⟩
  intro σ backend state aggregates enabled legible
  obtain ⟨skip, after, ran, _, skip_iff⟩ :=
    exists_run_skipSet aggregates enabled field legible since state
  exact ⟨skip, after, ran, skip_iff⟩

namespace Sample

def curriculum : Catalog := ⟨"lms-curriculum", "1m", true⟩

/-- Enough ids of courses for three portions, one of them twice. -/
def many : List Int := (List.range 20001).map Int.ofNat ++ [7]

noncomputable def counting : Backend Memory :=
  Memory.backend fun _ => .ok none

def held : Memory :=
  (Memory.blank .epoch).write ⟨⟨"lms-curriculum", "course_7_session_1"⟩, [("courseId", .integer 7)]⟩

theorem legible_many : ∀ id ∈ many, Key.ofJson (Key.toJson id) = .ok id := by
  intro id member
  have small : 0 ≤ id ∧ id ≤ 20000 := by
    rcases List.mem_append.mp member with listed | last
    · obtain ⟨number, inside, rfl⟩ := List.mem_map.mp listed
      have below := List.mem_range.mp inside
      exact ⟨Int.natCast_nonneg number, by change (number : Int) ≤ 20000; omega⟩
    · obtain rfl := List.mem_singleton.mp last
      decide
  have fits : Json.isSigned64 id = true := by
    simp only [Json.isSigned64, Bool.and_eq_true, decide_eq_true_eq]
    omega
  exact Key.ofJson_toJson_of_isSigned64 fits

theorem occurs_held_iff (id : Int) :
    Occurs counting held "lms-curriculum" "courseId" (some ("ingestTime", .epoch)) (.integer id) ↔
      id = 7 := by
  have shelf : counting.documents held "lms-curriculum" = [⟨"course_7_session_1",
      [("courseId", .integer 7), ("ingestTime", .string (Instant.bound .epoch))]⟩] := by
    rfl
  have recent : Fields.IngestedSince
      [("courseId", .integer 7), ("ingestTime", .string (Instant.bound .epoch))] "ingestTime"
        .epoch :=
    ⟨_, _, rfl, Calendar.instant?_bound .epoch, by decide⟩
  rw [Occurs, shelf]
  simp [Document.get?, Fields.get?, Fields.IsRecent, recent, eq_comm]

/-- A few ids of courses, one of them twice. -/
def few : List Int := [7, 8, 7]

/-- The answer for the few candidates, with a bucket for an id that was not asked for. -/
def answer : Json := Memory.buckets "courseId" [.integer 7, .integer 9]

theorem yields_few : (curriculum.skipSet "courseId" few none).Yields
    [⟨curriculum.portionRequest "courseId" none few, .ok answer⟩] (.ok ⟨[7]⟩) := by
  have one : batches Query.answerLimit few = [few] := by
    simp [batches, Query.answerLimit, few]
  have read : (aggregationKeys answer "courseId" : Except EngineError (List Int)) = .ok [7, 9] :=
    rfl
  have found : SkipSet.ofCandidates few [7, 9] = ⟨[7]⟩ := by
    simp [SkipSet.ofCandidates, few, List.eraseDups_cons]
  rw [skipSet, one]
  refine Program.yields_ask_iff.mpr ⟨.ok answer, [], rfl, ?_⟩
  simp only [Except.mapError, Program.done_ok_andThen, Program.bind_eq_andThen, Program.ofExcept,
    read, foundIn, Program.pure_eq_done, List.append_nil, found]
  exact .done _

/-- Of very many candidates the one that occurs is found, and of a few the answer does not add
one. -/
theorem skipSet_finds_held :
    ((curriculum.skipSet "courseId" few none).Yields
        [⟨curriculum.portionRequest "courseId" none few, .ok answer⟩] (.ok ⟨[7]⟩) ∧
      curriculum.Skips "courseId" few none
        [⟨curriculum.portionRequest "courseId" none few, .ok answer⟩] (.ok ⟨[7]⟩)) ∧
    counting.Aggregates ∧ curriculum.enabled = true ∧
      (∀ id ∈ many, Key.ofJson (Key.toJson id) = .ok id) ∧
        ∃ skip after, (curriculum.skipSet "courseId" many (some ("ingestTime", .epoch))).run
            counting.serve held = (.ok skip, after) ∧
          ∀ id, skip.contains id = true ↔ id = 7 := by
  have aggregates := Memory.aggregates_backend fun _ => .ok none
  obtain ⟨skips, _⟩ := skipSet_finds_candidates curriculum "courseId" few none
  obtain ⟨_, finds⟩ :=
    skipSet_finds_candidates curriculum "courseId" many (some ("ingestTime", .epoch))
  obtain ⟨skip, after, ran, skip_iff⟩ := finds Memory counting held aggregates rfl legible_many
  refine ⟨⟨yields_few, skips _ _ yields_few⟩, aggregates, rfl, legible_many, skip, after, ran, ?_⟩
  intro id
  refine (skip_iff id).trans ⟨fun both => (occurs_held_iff id).mp both.2, ?_⟩
  rintro rfl
  exact ⟨List.mem_append_right _ (List.mem_singleton.mpr rfl), (occurs_held_iff 7).mpr rfl⟩

end Sample

end Catalog
end LearningIndex
