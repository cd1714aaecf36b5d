import LearningIndex.Proofs.Program.Interference
import LearningIndex.Proofs.Program.Transcript
import Mathlib.Data.List.Nodup
import Mathlib.Logic.Function.Basic
import Mathlib.Logic.Relation

/-!
# Crowds

The programs of a crowd share a server that answers one request at a time.  Which of them asks next
is left open, so that a crowd takes its steps in any interleaving of the programs; programs that run
one after the other are a case of it.  What each program ensures among others that move the state as
the programs do, all of them ensure together.
-/

namespace LearningIndex

/-- Programs, of which each may have gone a part of its way, and the state of their server. -/
structure Crowd (interface : Interface) (ι ε α σ : Type) where
  /-- What each of the programs has yet to do. -/
  members : ι → Program interface ε α
  state : σ

namespace Crowd

variable {interface : Interface} {ι ε α β σ : Type}

def HasEnded (crowd : Crowd interface ι ε α σ) : Prop :=
  ∀ member, ∃ outcome, crowd.members member = .done outcome

/-- The state after some programs have run, one after the other in the given order. -/
def inTurn (serve : (request : interface.Request) → σ → interface.Reply request × σ)
    (programs : ι → Program interface ε α) (order : List ι) (state : σ) : σ :=
  order.foldl (fun state member => ((programs member).run serve state).2) state

theorem inTurn_congr {serve : (request : interface.Request) → σ → interface.Reply request × σ}
    {programs others : ι → Program interface ε α} {order : List ι}
    (same : ∀ member ∈ order, programs member = others member) (state : σ) :
    inTurn serve programs order state = inTurn serve others order state := by
  induction order generalizing state with
  | nil => rfl
  | cons member rest ih =>
      rw [inTurn, inTurn, List.foldl_cons, List.foldl_cons, same member List.mem_cons_self]
      exact ih (fun other inside => same other (List.mem_cons_of_mem member inside)) _

variable [DecidableEq ι]

section Steps

variable (serve : (request : interface.Request) → σ → interface.Reply request × σ)

/-- One of the programs asks, and the server answers. -/
inductive Step : Crowd interface ι ε α σ → Crowd interface ι ε α σ → Prop
  | ask {crowd : Crowd interface ι ε α σ} (member : ι) {request : interface.Request}
      {next : interface.Reply request → Program interface ε α}
      (due : crowd.members member = .ask request next) :
      Step crowd ⟨Function.update crowd.members member (next (serve request crowd.state).1),
        (serve request crowd.state).2⟩

/-- The programs ask some number of times, in any interleaving. -/
def Reaches : Crowd interface ι ε α σ → Crowd interface ι ε α σ → Prop :=
  Relation.ReflTransGen (Step serve)

end Steps

variable {serve : (request : interface.Request) → σ → interface.Reply request × σ}
variable {crowd after : Crowd interface ι ε α σ}

section Ensures

variable {rely guarantee : σ → σ → Prop} {ending : ι → Except ε α → σ → Prop}

theorem Step.ensures (refl : ∀ state, rely state state)
    (trans : ∀ {a b c}, rely a b → rely b c → rely a c)
    (own : ∀ {a b}, guarantee a b → rely a b) (step : Step serve crowd after)
    (ensured : ∀ member, Program.Ensures serve rely guarantee (ending member)
      (crowd.members member) crowd.state) (other : ι) :
    Program.Ensures serve rely guarantee (ending other) (after.members other) after.state := by
  cases step with
  | ask member due =>
      have asked := ensured member
      rw [due] at asked
      obtain ⟨kept, rest⟩ := asked crowd.state (refl crowd.state)
      by_cases same : other = member
      · subst same
        simpa only [Function.update_self] using rest
      · have waiting := (ensured other).later @trans (own kept)
        simpa only [Function.update_of_ne same] using waiting

theorem Step.moves (refl : ∀ state, rely state state)
    (own : ∀ {a b}, guarantee a b → rely a b) (step : Step serve crowd after)
    (ensured : ∀ member, Program.Ensures serve rely guarantee (ending member)
      (crowd.members member) crowd.state) : rely crowd.state after.state := by
  cases step with
  | ask member due =>
      have asked := ensured member
      rw [due] at asked
      exact own (asked crowd.state (refl crowd.state)).1

theorem Reaches.ensures (refl : ∀ state, rely state state)
    (trans : ∀ {a b c}, rely a b → rely b c → rely a c)
    (own : ∀ {a b}, guarantee a b → rely a b) (reaches : Reaches serve crowd after)
    (ensured : ∀ member, Program.Ensures serve rely guarantee (ending member)
      (crowd.members member) crowd.state) (other : ι) :
    Program.Ensures serve rely guarantee (ending other) (after.members other) after.state := by
  induction reaches generalizing other with
  | refl => exact ensured other
  | tail _ step ih => exact step.ensures refl trans own ih other

theorem Reaches.moves (refl : ∀ state, rely state state)
    (trans : ∀ {a b c}, rely a b → rely b c → rely a c)
    (own : ∀ {a b}, guarantee a b → rely a b) (reaches : Reaches serve crowd after)
    (ensured : ∀ member, Program.Ensures serve rely guarantee (ending member)
      (crowd.members member) crowd.state) : rely crowd.state after.state := by
  induction reaches with
  | refl => exact refl _
  | tail earlier step ih =>
      have before := Reaches.ensures refl trans own earlier ensured
      exact trans ih (step.moves refl own before)

/-- A program that has ended has done what it ensures, and the others have not undone it. -/
theorem Reaches.ends (refl : ∀ state, rely state state)
    (trans : ∀ {a b c}, rely a b → rely b c → rely a c)
    (own : ∀ {a b}, guarantee a b → rely a b) (reaches : Reaches serve crowd after)
    (ensured : ∀ member, Program.Ensures serve rely guarantee (ending member)
      (crowd.members member) crowd.state) {member : ι} {outcome : Except ε α}
    (ended : after.members member = .done outcome) : ending member outcome after.state := by
  have last := reaches.ensures refl trans own ensured member
  rw [ended] at last
  exact last after.state (refl after.state)

end Ensures

section Alone

theorem reaches_andThen {members : ι → Program interface ε α} {member : ι}
    {program : Program interface ε β} {next : β → Program interface ε α} {state middle : σ}
    {result : β} (due : members member = program.andThen next)
    (ran : program.run serve state = (.ok result, middle)) :
    Reaches serve ⟨members, state⟩ ⟨Function.update members member (next result), middle⟩ := by
  induction program generalizing members state with
  | done outcome =>
      obtain ⟨rfl, rfl⟩ := Prod.mk.inj ran
      rw [show next result = members member from due.symm, Function.update_eq_self]
      exact .refl
  | ask request resume ih =>
      refine .head (.ask member due) ?_
      have rest := @ih _ (Function.update members member
        ((resume (serve request state).1).andThen next)) _ (Function.update_self ..) ran
      rwa [Function.update_idem] at rest

/-- A program may run to its end while the others wait. -/
theorem reaches_run (members : ι → Program interface ε α) (member : ι) (state : σ) :
    Reaches serve ⟨members, state⟩
      ⟨Function.update members member (.done ((members member).run serve state).1),
        ((members member).run serve state).2⟩ := by
  generalize due : members member = program
  induction program generalizing members state with
  | done outcome =>
      rw [Program.run, ← due, Function.update_eq_self]
      exact .refl
  | ask request next ih =>
      refine .head (.ask member due) ?_
      have rest := ih (serve request state).1 (Function.update members member
        (next (serve request state).1)) (serve request state).2 (Function.update_self ..)
      rwa [Function.update_idem] at rest

/-- Programs may run one after the other while the others wait. -/
theorem exists_reaches_inTurn
    (serve : (request : interface.Request) → σ → interface.Reply request × σ) {order : List ι}
    (once : order.Nodup) (members : ι → Program interface ε α) (state : σ) :
    ∃ left, Reaches serve ⟨members, state⟩ ⟨left, inTurn serve members order state⟩ ∧
      (∀ member ∈ order, ∃ outcome, left member = .done outcome) ∧
        ∀ member ∉ order, left member = members member := by
  induction order generalizing members state with
  | nil => exact ⟨members, .refl, by simp, fun _ _ => rfl⟩
  | cons member rest ih =>
      obtain ⟨absent, once⟩ := List.nodup_cons.mp once
      let outcome := ((members member).run serve state).1
      let first := Function.update members member (.done outcome)
      obtain ⟨left, reaches, ended, waiting⟩ :=
        ih once first ((members member).run serve state).2
      have others : ∀ other ∈ rest, first other = members other := fun other inside =>
        Function.update_of_ne (ne_of_mem_of_not_mem inside absent) ..
      rw [inTurn_congr others] at reaches
      refine ⟨left, (reaches_run members member state).trans reaches, ?_, ?_⟩
      · intro other inside
        rcases List.mem_cons.mp inside with rfl | inside
        · exact ⟨outcome, (waiting other absent).trans (Function.update_self ..)⟩
        · exact ended other inside
      · intro other outside
        obtain ⟨apart, outside⟩ := not_or.mp (mt List.mem_cons.mpr outside)
        exact (waiting other outside).trans (Function.update_of_ne apart ..)

theorem exists_ended_inTurn
    (serve : (request : interface.Request) → σ → interface.Reply request × σ) {order : List ι}
    (once : order.Nodup) (all : ∀ member, member ∈ order)
    (members : ι → Program interface ε α) (state : σ) :
    ∃ after, Reaches serve ⟨members, state⟩ after ∧ after.HasEnded ∧
      after.state = inTurn serve members order state := by
  obtain ⟨left, reaches, ended, _⟩ := exists_reaches_inTurn serve once members state
  exact ⟨_, reaches, fun member => ended member (all member), rfl⟩

end Alone

end Crowd

end LearningIndex
