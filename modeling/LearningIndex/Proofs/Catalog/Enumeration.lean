import LearningIndex.Proofs.Backend
import LearningIndex.Proofs.Program.Interference
import LearningIndex.Proofs.Program.Trace
import Mathlib.Data.List.Forall2

/-!
# Listing an index

The list of all ids is a walk whose visitor halts nowhere and puts each id in front of those that it
has seen.  What it has seen after a page are the readable values of the page, the last one first.
While the context of the walk stays open and the index is calm, the walk shows the documents of the
index as they were at its beginning, whatever happens to other indexes.
-/

namespace LearningIndex
namespace Catalog

variable {κ : Type} [Key κ]

/-- The readable values of a field in some sources. -/
def readable (field : String) (sources : List Json) : List κ :=
  sources.filterMap fun source => sourceField? source field

@[simp]
theorem readable_nil (field : String) : (readable field [] : List κ) = [] := rfl

@[simp]
theorem readable_append (field : String) (first second : List Json) :
    (readable field (first ++ second) : List κ) = readable field first ++ readable field second :=
  List.filterMap_append

/-- The visitor that keeps every id and never halts. -/
def collect (ids : List κ) (id : κ) : Visit (List κ) :=
  .proceed (id :: ids)

theorem allIds_eq (catalog : Catalog) (field : String) :
    (catalog.allIds field : Task (List κ)) =
      (catalog.visitIds field collect []).andThen fun walk =>
        (Program.ofExcept walk.outcome).andThen fun _ => .done (.ok walk.state.reverse) := rfl

theorem visitSources_collect (field : String) (sources : List Json) (ids : List κ) :
    visitSources field collect ids sources =
      .proceed ((readable field sources).reverse ++ ids) := by
  induction sources generalizing ids with
  | nil => rfl
  | cons source rest ih =>
      rw [visitSources]
      cases value : (sourceField? source field : Option κ) with
      | none => simp [readable, value, ih]
      | some id => simp [readable, value, collect, ih]

theorem pageLimit_eq_succ : pageLimit = (pageLimit - 1) + 1 := rfl

theorem walkPages_of_last (catalog : Catalog) (field : String) {page : ScrollPage}
    (ids : List κ) :
    catalog.walkPages field collect pageLimit page none ids =
      .done (.ok ⟨(readable field page.sources).reverse ++ ids, none, .ok ()⟩) := by
  rw [pageLimit_eq_succ, walkPages, visitSources_collect]
  split
  · rename_i empty
    have sources : page.sources = [] := by
      simp [ScrollPage.sources, List.isEmpty_iff.mp empty]
    simp [sources]
  · rfl

/-- An index that answers with a page that names no scroll context is listed by one request. -/
theorem yields_allIds_of_last {catalog : Catalog} (enabled : catalog.enabled = true)
    (field : String) {answer : Json} (last : (ScrollPage.ofAnswer answer).scrollId = none) :
    (catalog.allIds field : Task (List κ)).Yields
      [⟨.engine (.search ⟨catalog.index, .everything field, some catalog.keepAlive⟩), .ok answer⟩]
      (.ok (readable field (ScrollPage.ofAnswer answer).sources)) := by
  rw [allIds_eq, visitIds, visitWithin, if_pos enabled]
  refine Program.yields_ask_iff.mpr ⟨.ok answer, [], rfl, ?_⟩
  simp [last, walkPages_of_last, release, Program.ofExcept]

/-- The readable values of a field in some documents. -/
def keysOf (field : String) (documents : List Document) : List κ :=
  documents.filterMap fun document =>
    (document.get? field).bind fun value => (Key.ofJson value).toOption

/-- The largest number of hits that a walk over so many pages sees to their end. -/
def walkLimit (pages : Nat) : Nat :=
  Query.answerLimit * (pages - 1)

/-- The error of a walk that is not at its end after the last page that is followed. -/
def tooManyPages : IndexingError :=
  .engine (.scroll "Too many pages")

/-- The outcome of listing some documents by values of theirs where nothing fails: the values, or an
error if there are too many documents. -/
def listing (documents : List Document) (values : List κ) : Except IndexingError (List κ) :=
  if documents.length ≤ walkLimit pageLimit then .ok values else .error tooManyPages

/-- What can come of listing some documents by values of theirs: no other values are listed, and an
engine that never fails leaves no choice at all. -/
structure Lists {σ : Type} (backend : Backend σ) (documents : List Document) (values : List κ)
    (outcome : Except IndexingError (List κ)) : Prop where
  sound : ∀ ids, outcome = .ok ids → ids = values
  /-- Without failures the outcome depends on the documents only. -/
  complete : backend.NeverFails → outcome = listing documents values

omit [Key κ] in
theorem lists_listing {σ : Type} (backend : Backend σ) (documents : List Document)
    (values : List κ) : Lists backend documents values (listing documents values) where
  sound := by
    intro ids listed
    unfold listing at listed
    split_ifs at listed
    exact (Except.ok.inj listed).symm
  complete _ := rfl

theorem readable_of_shows {field : String} {documents : List Document} {hits : List Json}
    (shown : List.Forall₂ (ShowsField field) documents hits) :
    (readable field (hits.filterMap (·.get? "_source")) : List κ) = keysOf field documents := by
  induction shown with
  | nil => rfl
  | cons first _ ih =>
      obtain ⟨source, hit, same⟩ := first
      simp only [readable, keysOf, List.filterMap_cons, hit, sourceField?, same] at ih ⊢
      rw [ih]

section Walk

variable {σ : Type} {backend : Backend σ} {calm : String → Prop}

/-- How a walk ends that has some hits before it and has kept some ids. -/
structure WalkEnds (backend : Backend σ) (field : String) (hits : List Json) (ids : List κ)
    (pages : Nat) (walk : Walk (List κ)) : Prop where
  /-- At the end all hits have been seen. -/
  sound : walk.outcome = .ok () →
    walk.state.reverse = ids.reverse ++ readable field (hits.filterMap (·.get? "_source"))
  /-- Without failures the end is reached unless there are too many pages. -/
  complete : backend.NeverFails →
    walk.outcome = if 0 < pages ∧ hits.length ≤ walkLimit pages then .ok ()
      else .error tooManyPages

theorem WalkEnds.of_next {field : String} {hits : List Json} {ids : List κ} {pages : Nat}
    {walk : Walk (List κ)} (remaining : hits ≠ [])
    (ends : WalkEnds backend field (hits.drop Query.answerLimit)
      ((readable field ((hits.take Query.answerLimit).filterMap (·.get? "_source"))).reverse ++ ids)
      pages walk) : WalkEnds backend field hits ids (pages + 1) walk where
  sound reached := by
    rw [ends.sound reached, List.reverse_append, List.reverse_reverse, List.append_assoc,
      ← readable_append, ← List.filterMap_append, List.take_append_drop]
  complete never := by
    have total : 0 < hits.length := List.length_pos_iff.mpr remaining
    have bound : (0 < pages ∧ (hits.drop Query.answerLimit).length ≤ walkLimit pages) ↔
        (0 < pages + 1 ∧ hits.length ≤ walkLimit (pages + 1)) := by
      simp only [List.length_drop, walkLimit, Query.answerLimit]
      omega
    simp only [ends.complete never, bound]

theorem walkPages_ensures (exact : backend.Exact) (catalog : Catalog) (field : String)
    (pages : Nat) {page : ScrollPage} {hits : List Json} {scrollId : String} (ids : List κ)
    {state : σ} (shown : page.hits = hits.take Query.answerLimit)
    (unread : backend.remaining state scrollId = some ⟨hits.drop Query.answerLimit,
      Query.answerLimit⟩) :
    Program.Ensures backend.serve (backend.Steady calm) backend.SameDocuments
      (fun outcome _ => ∃ walk, outcome = .ok walk ∧ WalkEnds backend field hits ids pages walk)
      (catalog.walkPages field collect pages page (some scrollId) ids) state := by
  induction pages generalizing page hits scrollId ids state with
  -- The walk has read as many pages as it may, so it fails although hits may be left.
  | zero => exact fun later calmly => ⟨_, rfl, by simp, by simp [tooManyPages]⟩
  | succ pages ih =>
      rw [walkPages]
      by_cases empty : hits = []
      · have isEmpty : page.isEmpty = true := by simp [ScrollPage.isEmpty, shown, empty]
        rw [if_pos isEmpty]
        exact fun later calmly => ⟨_, rfl, by simp [empty], by simp [empty]⟩
      · have isEmpty : page.isEmpty = false := by
          simp [ScrollPage.isEmpty, shown, empty, Query.answerLimit]
        rw [if_neg (by simp [isEmpty]), visitSources_collect]
        intro later calmly
        rw [← calmly.contexts] at unread
        refine ⟨exact.sameDocuments (.engine (.scroll scrollId catalog.keepAlive)) (fun _ => id)
          later, ?_⟩
        generalize answered : backend.serve (.engine (.scroll scrollId catalog.keepAlive)) later =
          answer
        obtain ⟨reply | reply, after⟩ := answer
        · intro ended _
          refine ⟨_, rfl, by simp, fun never => ?_⟩
          obtain ⟨_, answers⟩ := never.scroll scrollId catalog.keepAlive later _ unread
          simp [answered] at answers
        · obtain ⟨nextHits, nextOpen⟩ :=
            exact.continued scrollId catalog.keepAlive later _ reply unread (by rw [answered])
          rw [answered] at nextOpen
          have current : ((ScrollPage.ofAnswer reply).scrollId <|> some scrollId) =
              some ((ScrollPage.ofAnswer reply).scrollId.getD scrollId) := by
            cases (ScrollPage.ofAnswer reply).scrollId <;> rfl
          simp only [current]
          refine (ih _ nextHits nextOpen).mono ?_
          rintro _ ended ⟨walk, rfl, ends⟩
          rw [ScrollPage.sources, shown] at ends
          exact ⟨walk, rfl, ends.of_next empty⟩

/-- Releasing the scroll context changes nothing of the walk. -/
theorem release_ensures (exact : backend.Exact) {α : Type} (walk : Walk α) (state : σ) :
    Program.Ensures backend.serve (backend.Steady calm) backend.SameDocuments
      (fun outcome _ => outcome = .ok walk) (release walk) state := by
  unfold release
  split
  · exact fun _ _ => rfl
  · rename_i scrollId _
    exact fun later _ => ⟨exact.sameDocuments (.engine (.clearScroll scrollId)) (fun _ => id) later,
      fun _ _ => rfl⟩

/-- What a walk over all documents has seen at its end is what it lists. -/
theorem lists_of_walkEnds {documents : List Document} {field : String} {hits : List Json}
    (shown : List.Forall₂ (ShowsField field) documents hits) {walk : Walk (List κ)}
    (ends : WalkEnds backend field hits [] pageLimit walk) :
    Lists backend documents (keysOf field documents)
      (walk.outcome.map fun _ => walk.state.reverse) where
  sound := by
    intro ids listed
    cases reached : walk.outcome with
    | error error => simp [reached, Except.map] at listed
    | ok _ =>
        rw [reached] at listed
        rw [← Except.ok.inj listed, ends.sound reached, readable_of_shows shown]
        rfl
  complete := by
    intro never
    have bound : (0 < pageLimit ∧ hits.length ≤ walkLimit pageLimit) ↔
        documents.length ≤ walkLimit pageLimit := by
      rw [shown.length_eq]
      exact and_iff_right (by decide)
    have ended := ends.complete never
    simp only [bound] at ended
    unfold listing
    split_ifs at ended ⊢
    · rw [ended, Except.map, ends.sound ended, readable_of_shows shown]
      rfl
    · rw [ended, Except.map]

/-- While its index is calm, listing a field gives the values of the field in the documents of the
index. -/
theorem allIds_ensures (exact : backend.Exact) {catalog : Catalog}
    (enabled : catalog.enabled = true) (inside : calm catalog.index) (field : String) (state : σ) :
    Program.Ensures backend.serve (backend.Steady calm) backend.SameDocuments
      (fun outcome _ => Lists backend (backend.documents state catalog.index)
        (keysOf field (backend.documents state catalog.index)) outcome)
      (catalog.allIds field : Task (List κ)) state := by
  have refl := backend.steady_refl calm
  rw [allIds_eq, visitIds, visitWithin, if_pos enabled]
  intro later calmly
  refine ⟨exact.sameDocuments
    (.engine (.search ⟨catalog.index, .everything field, some catalog.keepAlive⟩))
    (fun _ => id) later, ?_⟩
  generalize answered : backend.serve
    (.engine (.search ⟨catalog.index, .everything field, some catalog.keepAlive⟩)) later = answer
  obtain ⟨reply | reply, after⟩ := answer
  · intro ended _
    refine ⟨by simp, fun never => ?_⟩
    obtain ⟨_, answers⟩ := never.search
      ⟨catalog.index, .everything field, some catalog.keepAlive⟩ later
    simp [answered] at answers
  · obtain ⟨hits, scrollId, shown, page, unread⟩ :=
      exact.listed catalog.index _ catalog.keepAlive _ later reply
        (Listing.ofBody?_everything field) (by rw [answered])
    rw [answered] at unread
    simp only [page]
    rw [calmly.documents catalog.index inside] at shown
    refine Program.Ensures.andThen refl (Program.Ensures.andThen refl
      ((walkPages_ensures exact catalog field pageLimit [] rfl unread).mono ?_))
    rintro _ ended ⟨walk, rfl, ends⟩
    refine (release_ensures exact walk ended).mono ?_
    rintro _ final rfl
    have settled : ((Program.ofExcept walk.outcome).andThen fun _ =>
        .done (.ok walk.state.reverse) : Task (List κ)) =
          .done (walk.outcome.map fun _ => walk.state.reverse) := by
      cases walk.outcome <;> rfl
    change Program.Ensures _ _ _ _ ((Program.ofExcept walk.outcome).andThen fun _ => _) _
    rw [settled]
    exact fun _ _ => lists_of_walkEnds shown ends

/-- While its index is calm, listing a field of integers gives each of them once, ascending. -/
theorem distinctIds_ensures (exact : backend.Exact) {catalog : Catalog}
    (enabled : catalog.enabled = true) (inside : calm catalog.index) (field : String) (state : σ) :
    Program.Ensures backend.serve (backend.Steady calm) backend.SameDocuments
      (fun outcome _ => Lists backend (backend.documents state catalog.index)
        (ascending (keysOf field (backend.documents state catalog.index))) outcome)
      (catalog.distinctIds field) state := by
  refine Program.Ensures.andThen (backend.steady_refl calm)
    ((allIds_ensures exact enabled inside field state).mono ?_)
  rintro (error | ids) after lists
  · refine ⟨by simp, fun never => ?_⟩
    have failed := lists.complete never
    unfold listing at failed ⊢
    split_ifs at failed ⊢
    rw [Except.error.inj failed]
  · intro last calmly
    refine ⟨fun sorted listed => ?_, fun never => ?_⟩
    · rw [← Except.ok.inj listed, lists.sound ids rfl]
    · have ended := lists.complete never
      unfold listing at ended ⊢
      split_ifs at ended ⊢
      rw [Except.ok.inj ended]

end Walk

end Catalog
end LearningIndex
