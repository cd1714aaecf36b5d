import LearningIndex.Http.Connection
import LearningIndex.Proofs.Program.Trace

/-!
# Failures of the server surface

An operation that contacts the server makes one exchange with it.  It returns only if the status
reports success, or that nothing is there where that is an answer.  Every other status is an error
of the operation's kind, and a body that cannot be read is a parse error.  The question whether an
index exists is the exception: every status but success is taken for the answer that it does not.
-/

namespace LearningIndex

/-! ## The shapes of answers -/

namespace Json

/-- The value is an integer of 64 bits without a sign. -/
def IsCount (value : Json) : Prop :=
  ∃ number : Int, value = .integer number ∧ 0 ≤ number ∧ number < 0x10000000000000000

/-- The value is a truth value. -/
def IsFlag (value : Json) : Prop :=
  ∃ flag, value = .bool flag

/-- The value is a list. -/
def IsListing (value : Json) : Prop :=
  ∃ items, value = .array items

theorem exists_expectUnsigned_iff {value : Json} :
    (∃ number, value.expectUnsigned = .ok number) ↔ value.IsCount := by
  cases value <;> simp [expectUnsigned, IsCount]
  case integer number =>
    have fits : isUnsigned64 number = true ↔ 0 ≤ number ∧ number < 0x10000000000000000 := by
      simp [isUnsigned64]
    split_ifs with inside <;> simp_all

theorem exists_expectBool_iff {value : Json} :
    (∃ flag, value.expectBool = .ok flag) ↔ value.IsFlag := by
  cases value <;> simp [expectBool, IsFlag]

theorem exists_expectArray_iff {value : Json} :
    (∃ items, value.expectArray = .ok items) ↔ value.IsListing := by
  cases value <;> simp [expectArray, IsListing]

end Json

/-- There is no value, or it is as asked. -/
def MayBe (asked : Json → Prop) (found : Option Json) : Prop :=
  ∀ value, found = some value → asked value

theorem exists_readOr_iff {α : Type} {fallback : α} {read : Json → Except Json.Fault α}
    {asked : Json → Prop} (read_iff : ∀ {value}, (∃ result, read value = .ok result) ↔ asked value)
    {found : Option Json} :
    (∃ result, readOr fallback read found = .ok result) ↔ MayBe asked found := by
  cases found <;> simp [readOr, MayBe, read_iff]

/-- The value has the shape of an answer to a bulk request: an object or a list of its fields, in
which the time taken is a count, the mark of errors a truth value and the items a list, as far as
they are there. -/
def BulkReply.IsShape : Json → Prop
  | .object fields =>
    MayBe Json.IsCount (Fields.get? "took" fields) ∧
      MayBe Json.IsFlag (Fields.get? "errors" fields) ∧
        MayBe Json.IsListing (Fields.get? "items" fields)
  | .array values =>
    MayBe Json.IsCount values[0]? ∧ MayBe Json.IsFlag values[1]? ∧
      MayBe Json.IsListing values[2]? ∧ values.length ≤ 3
  | _ => False

/-- The value has the shape of an answer to a deletion: an object or a list of its fields, in which
the number of documents is a count and the failures are a list, as far as they are there. -/
def DeleteReply.IsShape : Json → Prop
  | .object fields =>
    MayBe Json.IsCount (Fields.get? "deleted" fields) ∧
      MayBe Json.IsListing (Fields.get? "failures" fields)
  | .array values =>
    MayBe Json.IsCount values[0]? ∧ MayBe Json.IsListing values[1]? ∧ values.length ≤ 2
  | _ => False

theorem exists_bind_ok_iff {ε α β : Type} {first : Except ε α} {next : α → Except ε β}
    {asked : Prop} (next_iff : ∀ value, (∃ result, next value = .ok result) ↔ asked) :
    (∃ result, first >>= next = .ok result) ↔ (∃ value, first = .ok value) ∧ asked := by
  cases first with
  | error error => simp [bind, Except.bind]
  | ok value => simpa [bind, Except.bind] using next_iff value

theorem exists_recordItems_iff {size : Nat} {items : List Json} :
    (∃ result, recordItems size items = .ok result) ↔ items.length ≤ size := by
  unfold recordItems
  split_ifs <;> simp_all

theorem BulkReply.exists_ofJson_iff {value : Json} :
    (∃ reply, ofJson value = .ok reply) ↔ IsShape value := by
  cases value with
  | object fields =>
      rw [IsShape, ofJson]
      refine (exists_bind_ok_iff fun _ => exists_bind_ok_iff fun _ => exists_bind_ok_iff fun _ =>
        iff_of_true ⟨_, rfl⟩ trivial).trans ?_
      rw [exists_readOr_iff Json.exists_expectBool_iff,
        exists_readOr_iff Json.exists_expectArray_iff,
        exists_readOr_iff Json.exists_expectUnsigned_iff]
      tauto
  | array values =>
      rw [IsShape, ofJson]
      refine (exists_bind_ok_iff fun _ => exists_bind_ok_iff fun _ => exists_bind_ok_iff fun _ =>
        exists_bind_ok_iff fun _ => iff_of_true ⟨_, rfl⟩ trivial).trans ?_
      rw [exists_readOr_iff Json.exists_expectBool_iff,
        exists_readOr_iff Json.exists_expectArray_iff,
        exists_readOr_iff Json.exists_expectUnsigned_iff, exists_recordItems_iff, and_true]
  | _ => simp [ofJson, IsShape]

theorem DeleteReply.exists_ofJson_iff {value : Json} :
    (∃ reply, ofJson value = .ok reply) ↔ IsShape value := by
  cases value with
  | object fields =>
      rw [IsShape, ofJson]
      refine (exists_bind_ok_iff fun _ => exists_bind_ok_iff fun _ =>
        iff_of_true ⟨_, rfl⟩ trivial).trans ?_
      rw [exists_readOr_iff Json.exists_expectArray_iff,
        exists_readOr_iff Json.exists_expectUnsigned_iff, and_true]
  | array values =>
      rw [IsShape, ofJson]
      refine (exists_bind_ok_iff fun _ => exists_bind_ok_iff fun _ => exists_bind_ok_iff fun _ =>
        iff_of_true ⟨_, rfl⟩ trivial).trans ?_
      rw [exists_readOr_iff Json.exists_expectArray_iff,
        exists_readOr_iff Json.exists_expectUnsigned_iff, exists_recordItems_iff, and_true]
  | _ => simp [ofJson, IsShape]

namespace Http

/-! ## What the operations promise -/

/-- The status reports success: it is one of those from 200 to 299. -/
def Response.Succeeds (response : Response) : Prop :=
  200 ≤ response.status ∧ response.status ≤ 299

/-- The body of the response is the JSON text of the value. -/
def Response.Holds (response : Response) (value : Json) : Prop :=
  ∃ text, Utf8.decode? response.body = some text ∧ Json.value? text = some value

end Http

namespace EngineCall

/-- That nothing is there is an answer to the operation. -/
def AcceptsAbsence : EngineCall → Prop
  | clearScroll _ | deleteIndex _ | indexExists _ => True
  | _ => False

/-- The operation reads the body of a response that reports success. -/
def ReadsBody : EngineCall → Prop
  | clearScroll _ | deleteIndex _ | indexExists _ => False
  | _ => True

/-- The operation can make out a value. -/
def MakesOut : EngineCall → Json → Prop
  | bulk _ => BulkReply.IsShape
  | deleteByQuery _ _ => DeleteReply.IsShape
  | _ => fun _ => True

/-- The error is of the kind of the operation. -/
def Blames : EngineCall → EngineError → Prop
  | search _, .query _ => True
  | scroll _ _, .scroll _ => True
  | clearScroll _, .scroll _ => True
  | bulk _, .bulkIndex _ => True
  | deleteByQuery _ _, .delete _ => True
  | indexExists _, .connection _ => True
  | createIndex _ _, .indexCreation _ => True
  | deleteIndex _, .indexCreation _ => True
  | putPipeline _ _, .pipeline _ => True
  | health, .connection _ => True
  | _, _ => False

end EngineCall

namespace Http

open EngineCall (Blames)

/-- The result of an operation shows what the response says: it returns exactly if the status
reports success and the body can be made out as far as it is read, or if nothing is there and that
is an answer; another status is an error of the operation's kind, and a body that cannot be made out
is a parse error. -/
structure Surfaces (call : EngineCall) (response : Response)
    (result : Except EngineError call.Answer) : Prop where
  /-- Nothing but success, or absence where it is an answer, lets the operation return. -/
  returned : ∀ answer, result = .ok answer →
    response.Succeeds ∨ (response.status = 404 ∧ call.AcceptsAbsence)
  /-- Every other status is an error of the operation's kind. -/
  failed : ¬ response.Succeeds → ¬ (response.status = 404 ∧ call.AcceptsAbsence) →
    ∃ error, result = .error error ∧ Blames call error
  /-- A body that cannot be made out is a parse error. -/
  unreadable : response.Succeeds → call.ReadsBody →
    (∀ value, response.Holds value → ¬ call.MakesOut value) → ∃ text, result = .error (.parse text)
  /-- Success with a body that can be made out, as far as it is read, lets the operation return. -/
  read : response.Succeeds →
    (call.ReadsBody → ∃ value, response.Holds value ∧ call.MakesOut value) →
      ∃ answer, result = .ok answer
  /-- Absence lets the operation return where it is an answer. -/
  absent : response.status = 404 → call.AcceptsAbsence → ∃ answer, result = .ok answer

/-- Whether an index is there is told only by success and by 404; to every other operation each
status says what became of it. -/
def IsConclusive (call : EngineCall) (response : Response) : Prop :=
  ∀ index, call = .indexExists index → response.Succeeds ∨ response.status = 404

/-- The result is the answer that the index is not there. -/
def DeniesIndex : (call : EngineCall) → Except EngineError call.Answer → Prop
  | .indexExists _, result => result = .ok false
  | _, _ => False

/-! ## What the operations do -/

section Reading

variable {call : EngineCall} {response : Response}

theorem isSuccess_iff : response.isSuccess = true ↔ response.Succeeds := by
  simp only [Response.isSuccess, Response.Succeeds, Bool.and_eq_true, decide_eq_true_eq]
  omega

theorem blames_errorOf (call : EngineCall) (text : String) : Blames call (errorOf call text) := by
  cases call <;> trivial

theorem bodyValue_of_holds {value : Json} (holds : response.Holds value) :
    bodyValue response = .ok value := by
  obtain ⟨text, decoded, read⟩ := holds
  simp [bodyValue, decoded, read]

theorem bodyValue_cases (response : Response) :
    (∃ value, response.Holds value ∧ bodyValue response = .ok value) ∨
      (∀ value, ¬ response.Holds value) ∧ ∃ text, bodyValue response = .error (.parse text) := by
  cases read : (Utf8.decode? response.body).bind Json.value? with
  | some value =>
      obtain ⟨text, decoded, valued⟩ := Option.bind_eq_some_iff.mp read
      have holds : response.Holds value := ⟨text, decoded, valued⟩
      exact .inl ⟨value, holds, bodyValue_of_holds holds⟩
  | none =>
      refine .inr ⟨?_, _, by rw [bodyValue, read]⟩
      rintro value ⟨text, decoded, valued⟩
      simp [decoded, valued] at read

/-- An operation that makes an answer out of the body surfaces failures if it reads just the values
that it can make out. -/
theorem surfaces_of_reading (call : EngineCall) (response : Response)
    (read : Json → Except Json.Fault call.Answer) (reads : call.ReadsBody)
    (present : ¬ call.AcceptsAbsence)
    (read_iff : ∀ value, (∃ answer, read value = .ok answer) ↔ call.MakesOut value) :
    Surfaces call response (successValue call response >>= fun value =>
      (read value).mapError fun fault => .parse fault.message) := by
  unfold successValue
  by_cases success : response.Succeeds
  · rw [if_pos (isSuccess_iff.mpr success)]
    rcases bodyValue_cases response with ⟨value, holds, same⟩ | ⟨unheld, text, failed⟩
    · have only : ∀ other, response.Holds other → other = value := fun other held =>
        Except.ok.inj ((bodyValue_of_holds held).symm.trans same)
      rw [same]
      refine ⟨fun _ _ => .inl success, fun unsuccessful => absurd success unsuccessful, ?_, ?_,
        fun _ absent => absurd absent present⟩
      · intro _ _ unreadable
        cases answered : read value with
        | ok answer =>
            exact absurd ((read_iff value).mp ⟨answer, answered⟩) (unreadable value holds)
        | error fault =>
            exact ⟨fault.message, by simp [bind, Except.bind, answered, Except.mapError]⟩
      · intro _ readable
        obtain ⟨other, held, makesOut⟩ := readable reads
        obtain rfl := only other held
        obtain ⟨answer, answered⟩ := (read_iff other).mpr makesOut
        exact ⟨answer, by simp [bind, Except.bind, answered, Except.mapError]⟩
    · rw [failed]
      refine ⟨fun _ _ => .inl success, fun unsuccessful => absurd success unsuccessful,
        fun _ _ _ => ⟨text, rfl⟩, ?_, fun _ absent => absurd absent present⟩
      intro _ readable
      obtain ⟨value, held, -⟩ := readable reads
      exact absurd held (unheld value)
  · rw [if_neg (mt isSuccess_iff.mp success)]
    exact ⟨nofun, fun _ _ => ⟨_, rfl, blames_errorOf call _⟩,
      fun succeeds => absurd succeeds success, fun succeeds => absurd succeeds success,
      fun _ absent => absurd absent present⟩

/-- An operation that takes every value for an answer surfaces failures. -/
theorem surfaces_of_checking (call : EngineCall) (response : Response)
    (answer : Json → call.Answer) (reads : call.ReadsBody) (present : ¬ call.AcceptsAbsence)
    (any : ∀ value, call.MakesOut value) :
    Surfaces call response ((successValue call response).map answer) := by
  have surfaces := surfaces_of_reading call response (fun value => .ok (answer value)) reads
    present fun value => iff_of_true ⟨_, rfl⟩ (any value)
  cases same : successValue call response <;> rw [same] at surfaces <;> exact surfaces

/-- An operation to which absence is an answer surfaces all other failures. -/
theorem surfaces_of_absence {result : Except EngineError call.Answer} (ignores : ¬ call.ReadsBody)
    (absent : call.AcceptsAbsence)
    (returns : response.Succeeds ∨ response.status = 404 → ∃ answer, result = .ok answer)
    (fails : ¬ (response.Succeeds ∨ response.status = 404) →
      ∃ error, result = .error error ∧ Blames call error) : Surfaces call response result where
  returned answer same := by
    by_contra neither
    obtain ⟨error, failed, -⟩ := fails fun either =>
      neither (either.imp_right fun status => ⟨status, absent⟩)
    rw [same] at failed
    cases failed
  failed unsuccessful present :=
    fails fun either => either.elim unsuccessful fun status => present ⟨status, absent⟩
  unreadable _ reads := absurd reads ignores
  read success _ := returns (.inl success)
  absent status _ := returns (.inr status)

theorem successOrAbsent_eq (call : EngineCall) (response : Response) :
    (response.Succeeds ∨ response.status = 404 → successOrAbsent call response = .ok ()) ∧
      (¬ (response.Succeeds ∨ response.status = 404) →
        successOrAbsent call response = .error (statusError call response)) := by
  have either : (response.isSuccess || response.status == 404) = true ↔
      response.Succeeds ∨ response.status = 404 := by
    rw [Bool.or_eq_true, isSuccess_iff, beq_iff_eq]
  unfold successOrAbsent
  exact ⟨fun holds => if_pos (either.mpr holds), fun fails => if_neg (mt either.mp fails)⟩

theorem surfaces_readResponse (conclusive : IsConclusive call response) :
    Surfaces call response (readResponse call response) := by
  cases call with
  | search request =>
      have surfaces := surfaces_of_checking (.search request) response id trivial not_false
        fun _ => trivial
      rwa [Except.map_id] at surfaces
  | scroll scrollId keepAlive =>
      have surfaces := surfaces_of_checking (.scroll scrollId keepAlive) response id trivial
        not_false fun _ => trivial
      rwa [Except.map_id] at surfaces
  | bulk operations =>
      exact surfaces_of_reading (.bulk operations) response BulkReply.ofJson trivial not_false
        fun _ => BulkReply.exists_ofJson_iff
  | deleteByQuery index query =>
      exact surfaces_of_reading (.deleteByQuery index query) response DeleteReply.ofJson trivial
        not_false fun _ => DeleteReply.exists_ofJson_iff
  | createIndex | putPipeline | health =>
      exact surfaces_of_checking _ response _ trivial not_false fun _ => trivial
  | clearScroll scrollId =>
      obtain ⟨accepts, refuses⟩ := successOrAbsent_eq (.clearScroll scrollId) response
      exact surfaces_of_absence not_false trivial (fun either => ⟨(), accepts either⟩)
        fun neither => ⟨_, refuses neither, trivial⟩
  | deleteIndex index =>
      obtain ⟨accepts, refuses⟩ := successOrAbsent_eq (.deleteIndex index) response
      exact surfaces_of_absence not_false trivial (fun either => ⟨(), accepts either⟩)
        fun neither => ⟨_, refuses neither, trivial⟩
  | indexExists index =>
      exact surfaces_of_absence not_false trivial (fun _ => ⟨_, rfl⟩)
        fun neither => absurd (conclusive index rfl) neither

theorem deniesIndex_readResponse (inconclusive : ¬ IsConclusive call response) :
    DeniesIndex call (readResponse call response) := by
  simp only [IsConclusive, not_forall] at inconclusive
  obtain ⟨index, rfl, unanswered⟩ := inconclusive
  have unsuccessful : response.isSuccess = false :=
    Bool.eq_false_iff.mpr fun success => unanswered (.inl (isSuccess_iff.mp success))
  exact congrArg Except.ok unsuccessful

end Reading

/-! ## Runs -/

/-- What an operation ends with after the reply to its exchange. -/
def resultOf (call : EngineCall) : Option Response → Except EngineError call.Answer
  | some response => readResponse call response
  | none => .error (noResponse call)

theorem perform_eq_ask {ε : Type} {connection : Connection} {call : EngineCall} {request : Request}
    (contacts : requestFor connection.authorization call = some request) :
    (connection.perform call : Program machine ε (Except EngineError call.Answer)) =
      .ask (.exchange connection.address request) fun (reply : Option Response) =>
        .done (.ok (resultOf call reply)) := by
  rw [Connection.perform, contacts]
  refine congrArg (Program.ask  _) (funext fun reply => ?_)
  cases reply <;> rfl

/-- An operation that contacts the server makes one exchange with it and ends whatever the reply
is.  No reply is an error of the operation's kind, and a response surfaces in the result, unless the
question was whether an index is there and the status is neither success nor 404: the result is then
that it is not there, although the server did not say so. -/
theorem failures_surface {ε : Type} (connection : Connection) (call : EngineCall)
    {request : Request} (contacts : requestFor connection.authorization call = some request) :
    ∃ result : Option Response → Except EngineError call.Answer,
      (∀ trace (outcome : Except ε (Except EngineError call.Answer)),
        (connection.perform call).Yields trace outcome ↔
          ∃ reply, trace = [⟨Machine.Request.exchange connection.address request, reply⟩] ∧
            outcome = .ok (result reply)) ∧
      (∃ error, result none = .error error ∧ Blames call error) ∧
      (∀ response, IsConclusive call response →
        Surfaces call response (result (some response))) ∧
      ∀ response, ¬ IsConclusive call response → DeniesIndex call (result (some response)) := by
  refine ⟨resultOf call, fun trace outcome => ?_, ⟨_, rfl, blames_errorOf call _⟩,
    fun _ => surfaces_readResponse, fun _ => deniesIndex_readResponse⟩
  rw [perform_eq_ask contacts]
  refine Program.yields_ask_iff.trans ⟨?_, ?_⟩
  · rintro ⟨reply, rest, rfl, run⟩
    obtain ⟨rfl, rfl⟩ := Program.yields_done_iff.mp run
    exact ⟨reply, rfl, rfl⟩
  · rintro ⟨reply, rfl, rfl⟩
    exact ⟨reply, [], rfl, .done _⟩

namespace Failures.Sample

def nearby : Connection := ⟨"http://localhost:9200", none⟩

/-- The response of an engine that cannot serve at the moment. -/
def overloaded : Response := ⟨503, []⟩

/-- The next page of a search that an overloaded engine does not give is a scroll error. -/
theorem failures_surface_scroll :
    ∃ result : Except EngineError Json,
      (∃ error, result = .error error ∧ Blames (.scroll "c" "5m") error) ∧
        (nearby.perform (.scroll "c" "5m") : Program machine Empty (Except EngineError Json)).Yields
          [⟨Machine.Request.exchange nearby.address ⟨.post, "/_search/scroll",
            .json (.ofFields [("scroll", .string "5m"), ("scroll_id", .string "c")]), none⟩,
            some overloaded⟩] (.ok result) := by
  obtain ⟨result, runs, -, surfaces, -⟩ := failures_surface (ε := Empty) nearby
    (.scroll "c" "5m") rfl
  have surfaced := surfaces overloaded nofun
  exact ⟨result (some overloaded), surfaced.failed (by simp [Response.Succeeds, overloaded])
    (by simp [overloaded]), (runs _ _).mpr ⟨_, rfl, rfl⟩⟩

/-- To an overloaded engine the question whether an index is there does not fail: the answer is
no. -/
theorem exists_unsurfaced :
    (nearby.perform (.indexExists "i") : Program machine Empty (Except EngineError Bool)).Yields
        [⟨Machine.Request.exchange nearby.address ⟨.head, "/i", .empty, none⟩, some overloaded⟩]
        (.ok (.ok false)) ∧
      ¬ Surfaces (.indexExists "i") overloaded (.ok false) := by
  constructor
  · exact .ask _ (.done _)
  · rintro ⟨-, failed, -, -, -⟩
    obtain ⟨error, impossible, -⟩ := failed (by simp [Response.Succeeds, overloaded])
      (by simp [overloaded])
    cases impossible

end Failures.Sample

end Http
end LearningIndex
