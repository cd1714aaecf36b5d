import LearningIndex.Machine

/-!
# A machine without a network

Files come from a tree, no server can be reached, and the clock stands still.
-/

namespace LearningIndex
namespace Rehearsal

def serveOffline (files : Storage.Tree) (time : Calendar.Instant) (question : Machine.Request) :
    Machine.Reply question :=
  match question with
  | .read path => files.read path
  | .exchange _ _ => none
  | .clock => time

/-- Runs a program on a machine without a network. -/
def runOffline {ε α : Type} (files : Storage.Tree) (time : Calendar.Instant)
    (program : Program machine ε α) : Except ε α :=
  (program.run (fun question (state : Unit) => (serveOffline files time question, state)) ()).1

end Rehearsal
end LearningIndex
