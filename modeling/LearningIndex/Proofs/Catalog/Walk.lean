import LearningIndex.Proofs.Catalog.Enumeration

/-!
# Walking over all ids

A walk fetches one page after the other.  It ends at the first reply that is a failure or a page
without hits, or after which the visitor has halted or no scroll context is known.  Until then it
asks for each page under the id that it was given last, and then it releases the context of that id.
The replies are arbitrary here: a page may rename its context, or name none.
-/

namespace LearningIndex

namespace Visit

variable {σ κ : Type}

def state : Visit σ → σ
  | proceed state => state
  | halt state => state

/-- Whether the visitor wants to see no more. -/
def halted : Visit σ → Bool
  | proceed _ => false
  | halt _ => true

/-- What a visitor wants after some ids. -/
def all (visit : σ → κ → Visit σ) : σ → List κ → Visit σ
  | state, [] => proceed state
  | state, id :: rest =>
    match visit state id with
    | proceed next => all visit next rest
    | halt last => halt last

/-- The ids that a visitor sees: all up to the one at which it halts, and that one too. -/
def seen (visit : σ → κ → Visit σ) : σ → List κ → List κ
  | _, [] => []
  | state, id :: rest =>
    match visit state id with
    | proceed next => id :: seen visit next rest
    | halt _ => [id]

theorem state_all (visit : σ → κ → Visit σ) (start : σ) (ids : List κ) :
    (all visit start ids).state =
      (seen visit start ids).foldl (fun state id => (visit state id).state) start := by
  induction ids generalizing start with
  | nil => rfl
  | cons id rest ih =>
      rw [all, seen]
      cases wanted : visit start id with
      | proceed next =>
          rw [List.foldl_cons, wanted]
          exact ih next
      | halt last =>
          rw [List.foldl_cons, wanted]
          rfl

theorem all_append {visit : σ → κ → Visit σ} {start middle : σ} {first : List κ}
    (proceeded : all visit start first = proceed middle) (second : List κ) :
    all visit start (first ++ second) = all visit middle second := by
  induction first generalizing start with
  | nil =>
      obtain rfl := proceed.inj proceeded
      rfl
  | cons id rest ih =>
      rw [List.cons_append, all]
      rw [all] at proceeded
      cases wanted : visit start id with
      | proceed next =>
          rw [wanted] at proceeded
          exact ih proceeded
      | halt last => simp [wanted] at proceeded

end Visit

namespace Catalog

variable {κ σ : Type} [Key κ]

theorem visitSources_eq (field : String) (visit : σ → κ → Visit σ) (start : σ)
    (sources : List Json) :
    visitSources field visit start sources = Visit.all visit start (readable field sources) := by
  induction sources generalizing start with
  | nil => rfl
  | cons source rest ih =>
      rw [visitSources]
      cases value : (sourceField? source field : Option κ) with
      | none => simp [readable, value, ih]
      | some id =>
          have first : (readable field (source :: rest) : List κ) = id :: readable field rest := by
            simp [readable, value]
          rw [first, Visit.all]
          dsimp only
          cases visit start id with
          | proceed next => exact ih next
          | halt last => rfl

/-! ## What has been received -/

/-- The pages among the first replies; failures hold none. -/
def received (replies : Nat → Except EngineError Json) (count : Nat) : List ScrollPage :=
  (List.range count).filterMap fun step => (replies step).toOption.map ScrollPage.ofAnswer

/-- The scroll id that was given last. -/
def latestId (pages : List ScrollPage) : Option String :=
  (pages.filterMap (·.scrollId)).getLast?

/-- The readable ids of some pages, in the order of the pages and of their hits. -/
def idsOn (field : String) (pages : List ScrollPage) : List κ :=
  readable field (pages.flatMap (·.sources))

theorem received_of_ok {replies : Nat → Except EngineError Json} {step : Nat} {answer : Json}
    (answered : replies step = .ok answer) :
    received replies (step + 1) = received replies step ++ [ScrollPage.ofAnswer answer] := by
  simp [received, List.range_succ, answered, Except.toOption]

theorem received_of_error {replies : Nat → Except EngineError Json} {step : Nat}
    {error : EngineError} (failed : replies step = .error error) :
    received replies (step + 1) = received replies step := by
  simp [received, List.range_succ, failed, Except.toOption]

theorem latestId_append (pages : List ScrollPage) (page : ScrollPage) :
    latestId (pages ++ [page]) = (page.scrollId <|> latestId pages) := by
  cases named : page.scrollId <;> simp [latestId, named]

theorem idsOn_append (field : String) (pages : List ScrollPage) (page : ScrollPage) :
    (idsOn field (pages ++ [page]) : List κ) =
      idsOn field pages ++ readable field page.sources := by
  simp [idsOn]

/-! ## Walks -/

/-- Why a walk ends with a reply. -/
inductive Ends (field : String) (visit : σ → κ → Visit σ) (start : σ)
    (replies : Nat → Except EngineError Json) (step : Nat) : Prop
  /-- The reply is a failure. -/
  | failed (error : EngineError) : replies step = .error error → Ends field visit start replies step
  /-- The page has no hit. -/
  | empty (answer : Json) : replies step = .ok answer → (ScrollPage.ofAnswer answer).isEmpty →
      Ends field visit start replies step
  /-- The visitor has halted. -/
  | halted : (Visit.all visit start (idsOn field (received replies (step + 1)))).halted →
      Ends field visit start replies step
  /-- There is no scroll id. -/
  | unnamed : latestId (received replies (step + 1)) = none → Ends field visit start replies step

/-- The walk that ends with a reply: the visitor has seen the ids received, and only the last reply
can be a failure. -/
def walkUntil (field : String) (visit : σ → κ → Visit σ) (start : σ)
    (replies : Nat → Except EngineError Json) (stop : Nat) : Walk σ where
  state := (Visit.seen visit start (idsOn field (received replies (stop + 1)))).foldl
    (fun state id => (visit state id).state) start
  scrollId := latestId (received replies (stop + 1))
  outcome := match replies stop with
    | .ok _ => .ok ()
    | .error error => .error (.engine error)

/-- The first request for a page, with the reply to it. -/
def searched (catalog : Catalog) (field : String) (replies : Nat → Except EngineError Json) :
    Exchange services :=
  ⟨.engine (.search ⟨catalog.index, .everything field, some catalog.keepAlive⟩), replies 0⟩

/-- The request for the page after a reply, with the reply to it. -/
def scrolled (catalog : Catalog) (names : Nat → String)
    (replies : Nat → Except EngineError Json) (step : Nat) : Exchange services :=
  ⟨.engine (.scroll (names step) catalog.keepAlive), replies (step + 1)⟩

/-- The request that releases a context. -/
def cleared (reply : Except EngineError Unit) (scrollId : String) : Exchange services :=
  ⟨.engine (.clearScroll scrollId), reply⟩

theorem walkUntil_of_ok {field : String} {visit : σ → κ → Visit σ} {start : σ}
    {replies : Nat → Except EngineError Json} {stop : Nat} {answer : Json}
    (answered : replies stop = .ok answer) :
    walkUntil field visit start replies stop =
      ⟨(Visit.all visit start (idsOn field (received replies (stop + 1)))).state,
        latestId (received replies (stop + 1)), .ok ()⟩ := by
  rw [walkUntil, answered, Visit.state_all]

theorem walkUntil_of_error {field : String} {visit : σ → κ → Visit σ} {start : σ}
    {replies : Nat → Except EngineError Json} {stop : Nat} {error : EngineError}
    (failed : replies stop = .error error) :
    walkUntil field visit start replies stop =
      ⟨(Visit.all visit start (idsOn field (received replies stop))).state,
        latestId (received replies stop), .error (.engine error)⟩ := by
  rw [walkUntil, failed, received_of_error failed, Visit.state_all]

section Replies

variable {catalog : Catalog} {field : String} {visit : σ → κ → Visit σ} {start : σ}
  {replies : Nat → Except EngineError Json}

/-- From a reply on, which nothing before it makes superfluous, the program scrolls up to the first
reply that ends the walk, and ends with that walk. -/
def Follows (catalog : Catalog) (field : String) (visit : σ → κ → Visit σ) (start : σ)
    (replies : Nat → Except EngineError Json) (step : Nat)
    (program : Program services IndexingError (Walk σ)) : Prop :=
  ∃ stop, step ≤ stop ∧ Ends field visit start replies stop ∧
    (∀ earlier < stop, ¬Ends field visit start replies earlier) ∧
      ∀ names : Nat → String,
        (∀ earlier < stop, latestId (received replies (earlier + 1)) = some (names earlier)) →
          program.Yields ((List.range' step (stop - step)).map (scrolled catalog names replies))
            (.ok (walkUntil field visit start replies stop))

theorem Follows.of_ends {step : Nat} (ends : Ends field visit start replies step)
    (going : ∀ earlier < step, ¬Ends field visit start replies earlier) {walk : Walk σ}
    (same : walkUntil field visit start replies step = walk) :
    Follows catalog field visit start replies step (.done (.ok walk)) := by
  subst same
  refine ⟨step, Nat.le_refl step, ends, going, fun names named => ?_⟩
  rw [Nat.sub_self]
  exact .done _

theorem Follows.ask {step : Nat} {scrollId : String}
    {next : Except EngineError Json → Program services IndexingError (Walk σ)}
    (current : latestId (received replies (step + 1)) = some scrollId)
    (later : Follows catalog field visit start replies (step + 1) (next (replies (step + 1)))) :
    Follows catalog field visit start replies step
      (.ask (.engine (.scroll scrollId catalog.keepAlive)) next) := by
  obtain ⟨stop, after, ends, going, run⟩ := later
  refine ⟨stop, Nat.le_of_succ_le after, ends, going, fun names named => ?_⟩
  obtain rfl := Option.some.inj (current.symm.trans (named step after))
  have steps : List.range' step (stop - step) =
      step :: List.range' (step + 1) (stop - (step + 1)) := by
    rw [← List.range'_succ, show stop - step = stop - (step + 1) + 1 by omega]
  rw [steps]
  exact Program.yields_ask_iff.mpr ⟨replies (step + 1), _, rfl, run names named⟩

theorem not_ends {step : Nat} {answer : Json} (answered : replies step = .ok answer)
    (filled : ¬(ScrollPage.ofAnswer answer).isEmpty) {next : σ} {scrollId : String}
    (wanted : Visit.all visit start (idsOn field (received replies (step + 1))) = .proceed next)
    (current : latestId (received replies (step + 1)) = some scrollId) :
    ¬Ends field visit start replies step := by
  rintro (⟨error, failed⟩ | ⟨other, same, empty⟩ | halted | unnamed)
  · simp [answered] at failed
  · obtain rfl := Except.ok.inj (answered.symm.trans same)
    exact filled empty
  · simp [wanted, Visit.halted] at halted
  · simp [current] at unnamed

theorem walkPages_follows {last : Nat} (ended : Ends field visit start replies last) (pages : Nat)
    {step : Nat} (enough : last < step + pages)
    (going : ∀ earlier < step, ¬Ends field visit start replies earlier) {answer : Json}
    (answered : replies step = .ok answer) {state : σ}
    (proceeded : Visit.all visit start (idsOn field (received replies step)) = .proceed state) :
    Follows catalog field visit start replies step
      (catalog.walkPages field visit pages (ScrollPage.ofAnswer answer)
        (latestId (received replies (step + 1))) state) := by
  induction pages generalizing step answer state with
  -- The reply that ends the walk came before the pages were used up.
  | zero => exact absurd ended (going last enough)
  | succ pages ih =>
      let page := ScrollPage.ofAnswer answer
      have shown : Visit.all visit start (idsOn field (received replies (step + 1))) =
          Visit.all visit state (readable field page.sources) := by
        rw [received_of_ok answered, idsOn_append, Visit.all_append proceeded]
      rw [walkPages]
      by_cases empty : page.isEmpty
      · have sources : page.sources = [] := by
          simp [ScrollPage.sources, List.isEmpty_iff.mp empty]
        rw [if_pos empty]
        refine .of_ends (.empty answer answered empty) going ?_
        rw [walkUntil_of_ok answered, shown, sources]
        rfl
      rw [if_neg empty, visitSources_eq, ← shown]
      cases wanted : Visit.all visit start (idsOn field (received replies (step + 1))) with
      | halt final =>
          refine .of_ends (.halted (by rw [wanted]; rfl)) going ?_
          rw [walkUntil_of_ok answered, wanted]
          rfl
      | proceed next =>
          cases current : latestId (received replies (step + 1)) with
          | none =>
              refine .of_ends (.unnamed current) going ?_
              rw [walkUntil_of_ok answered, wanted, current]
              rfl
          | some scrollId =>
              have goes := not_ends answered empty wanted current
              have going : ∀ earlier < step + 1, ¬Ends field visit start replies earlier := by
                intro earlier below
                rcases Nat.lt_succ_iff_lt_or_eq.mp below with before | rfl
                · exact going earlier before
                · exact goes
              refine .ask current ?_
              cases reply : replies (step + 1) with
              | error error =>
                  refine .of_ends (.failed error reply) going ?_
                  rw [walkUntil_of_error reply, wanted, current]
                  rfl
              | ok later =>
                  have renamed : latestId (received replies (step + 1 + 1)) =
                      ((ScrollPage.ofAnswer later).scrollId <|> some scrollId) := by
                    rw [received_of_ok reply, latestId_append, current]
                  dsimp only
                  rw [← renamed]
                  exact ih (by omega) going reply wanted

/-- The walk of a program that follows the replies from the first one on. -/
theorem Follows.exists_yields {program : Program services IndexingError (Walk σ)}
    (follows : Follows catalog field visit start replies 0 program) :
    ∃ stop, Ends field visit start replies stop ∧
      (∀ earlier < stop, ¬Ends field visit start replies earlier) ∧
        ∃ names : Nat → String,
          (∀ earlier < stop, latestId (received replies (earlier + 1)) = some (names earlier)) ∧
            program.Yields ((List.range stop).map (scrolled catalog names replies))
              (.ok (walkUntil field visit start replies stop)) := by
  obtain ⟨stop, _, ends, going, run⟩ := follows
  let names (step : Nat) := (latestId (received replies (step + 1))).getD ""
  have named : ∀ earlier < stop,
      latestId (received replies (earlier + 1)) = some (names earlier) := by
    intro earlier below
    cases current : latestId (received replies (earlier + 1)) with
    | none => exact absurd (.unnamed current) (going earlier below)
    | some scrollId => simp [names, current]
  refine ⟨stop, ends, going, names, named, ?_⟩
  rw [List.range_eq_range']
  exact run names named

theorem exists_walked (enabled : catalog.enabled = true) {last pages : Nat}
    (ended : Ends field visit start replies last) (enough : last < pages) :
    ∃ walked, Follows catalog field visit start replies 0 walked ∧
      ∀ {trace outcome}, (walked.andThen release).Yields trace outcome →
        (catalog.visitWithin pages field visit start).Yields
          (catalog.searched field replies :: trace) outcome := by
  rw [visitWithin, if_pos enabled]
  cases reply : replies 0 with
  | error error =>
      refine ⟨.done (.ok ⟨start, none, .error (.engine error)⟩),
        .of_ends (.failed error reply) (by simp) (walkUntil_of_error reply), fun run => ?_⟩
      exact Program.yields_ask_iff.mpr ⟨replies 0, _, rfl, by rwa [reply]⟩
  | ok answer =>
      have current : latestId (received replies (0 + 1)) =
          (ScrollPage.ofAnswer answer).scrollId := by
        rw [received_of_ok reply, latestId_append]
        cases (ScrollPage.ofAnswer answer).scrollId <;> rfl
      refine ⟨catalog.walkPages field visit pages (ScrollPage.ofAnswer answer)
        (ScrollPage.ofAnswer answer).scrollId start, ?_, fun run => ?_⟩
      · rw [← current]
        exact walkPages_follows ended pages (by omega) (by simp) reply rfl
      · exact Program.yields_ask_iff.mpr ⟨replies 0, _, rfl, by rwa [reply]⟩

/-- The latest context is released, whatever comes of it. -/
theorem release_yields (stop : Nat) (released : Except EngineError Unit) :
    (release (walkUntil field visit start replies stop)).Yields
      ((latestId (received replies (stop + 1))).toList.map (cleared released))
      (.ok (walkUntil field visit start replies stop)) := by
  cases current : latestId (received replies (stop + 1)) with
  | none => simp [release, walkUntil, current]
  | some scrollId =>
      simp only [release, walkUntil, current]
      exact Program.yields_ask_iff.mpr ⟨released, [], rfl, .done _⟩

/-- A walk searches once and then scrolls, each time under the id that it was given last, up to the
first reply that ends it.  Then it releases that context, if there is one, and has shown the visitor
what it received. -/
theorem visitWithin_yields (enabled : catalog.enabled = true) {last pages : Nat}
    (ended : Ends field visit start replies last) (enough : last < pages)
    (released : Except EngineError Unit) :
    ∃ stop, Ends field visit start replies stop ∧
      (∀ earlier < stop, ¬Ends field visit start replies earlier) ∧
        ∃ names : Nat → String,
          (∀ earlier < stop, latestId (received replies (earlier + 1)) = some (names earlier)) ∧
            (catalog.visitWithin pages field visit start).Yields
              (catalog.searched field replies ::
                ((List.range stop).map (scrolled catalog names replies) ++
                  (latestId (received replies (stop + 1))).toList.map (cleared released)))
              (.ok (walkUntil field visit start replies stop)) := by
  obtain ⟨walked, follows, within⟩ := exists_walked enabled ended enough
  obtain ⟨stop, ends, going, names, named, run⟩ := follows.exists_yields
  exact ⟨stop, ends, going, names, named, within (run.andThen (release_yields stop released))⟩

end Replies

namespace Sample

def descriptors : Catalog := ⟨"lms-mesh", "1m", true⟩

def page (scrollId : Option String) (ids : List Json) : Json :=
  .object ((scrollId.toList.map fun name => ("_scroll_id", .string name)) ++
    [("hits", .object [("hits", .array (ids.map fun id =>
      .object [("_source", .object [("id", id)])]))])])

/-- Three pages: the second names no context and has an id that cannot be read, and the third
renames the context. -/
def pages : Nat → Except EngineError Json
  | 0 => .ok (page (some "first") [.string "D1"])
  | 1 => .ok (page none [.integer 7, .string "D2"])
  | 2 => .ok (page (some "second") [.string "D3", .string "D4"])
  | _ => .ok (page none [])

/-- A visitor that keeps three ids. -/
def three : List String → String → Visit (List String) := keep (some 3)

theorem ends_pages : Ends "id" three [] pages 3 :=
  .empty _ rfl rfl

/-- The visitor halts within the third page, whose context is released though clearing fails. -/
theorem visitWithin_yields_pages :
    descriptors.enabled = true ∧ Ends "id" three [] pages 3 ∧ 3 < 5 ∧
      (descriptors.visitWithin 5 "id" three []).Yields
        [⟨.engine (.search ⟨"lms-mesh", .everything "id", some "1m"⟩), pages 0⟩,
          ⟨.engine (.scroll "first" "1m"), pages 1⟩, ⟨.engine (.scroll "first" "1m"), pages 2⟩,
          ⟨.engine (.clearScroll "second"), .error (.scroll "gone")⟩]
        (.ok ⟨["D1", "D2", "D3"], some "second", .ok ()⟩) := by
  refine ⟨rfl, ends_pages, by decide, ?_⟩
  obtain ⟨stop, ends, going, names, named, run⟩ := visitWithin_yields
    (show descriptors.enabled = true from rfl) ends_pages (show 3 < 5 by decide)
      (.error (.scroll "gone"))
  have goes : ¬Ends "id" three [] pages 0 ∧ ¬Ends "id" three [] pages 1 :=
    ⟨not_ends rfl (by decide) rfl rfl, not_ends rfl (by decide) rfl rfl⟩
  have halts : Ends "id" three [] pages 2 := .halted rfl
  obtain rfl : stop = 2 := by
    have above : 2 ≤ stop := by
      match stop, ends with
      | 0, ends => exact absurd ends goes.1
      | 1, ends => exact absurd ends goes.2
      | stop + 2, _ => omega
    have below : ¬2 < stop := fun later => going 2 later halts
    omega
  have first : names 0 = "first" := (Option.some.inj (named 0 (by decide))).symm
  have second : names 1 = "first" := (Option.some.inj (named 1 (by decide))).symm
  have scrolls : (List.range 2).map (descriptors.scrolled names pages) =
      [⟨.engine (.scroll "first" "1m"), pages 1⟩, ⟨.engine (.scroll "first" "1m"), pages 2⟩] := by
    simp [List.range_succ, scrolled, first, second, descriptors]
  rw [scrolls] at run
  exact run

end Sample

end Catalog
end LearningIndex
