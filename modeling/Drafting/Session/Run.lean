import Drafting.Session.Basic

/-! Runs of a session: lists of operations, each with the time at which it happens. -/
namespace Drafting

/-- An operation on a session. -/
inductive Operation where
  | replaceGeometry (snapshot : Snapshot)
  | create (request : Request)
  | remove (id : ConstraintId)
  | toggle (id : ConstraintId) (active : Option Bool)
  | solve
  | connectPairs (ids : List EntityId)
  | listen (react : List Constraint → Option ListenerError)
  | unlisten (id : ListenerId)

/-- What an operation answers. -/
inductive Answer where
  | done
  | created (result : Except AdmissionError ConstraintId)
  | found (there : Bool)
  | solved (solutions : List Solution)
  | connected (ids : List ConstraintId)
  | listening (id : ListenerId)

/-- The outcome with another answer. -/
def Outcome.map {α β : Type} (f : α → β) (o : Outcome α) : Outcome β := ⟨f o.answer, o.session, o.effects⟩

namespace Session

/-- Carries out one operation. -/
def perform (observer : Observer) (now : Timestamp) (s : Session) : Operation → Outcome Answer
  | .replaceGeometry snapshot => (s.replaceGeometry snapshot).map fun _ => .done
  | .create request => (s.create now request).map .created
  | .remove id => (s.remove id).map .found
  | .toggle id active => (s.toggle now id active).map .found
  | .solve => (s.solve observer now).map .solved
  | .connectPairs ids => (s.connectPairs now ids).map .connected
  | .listen react => (s.listen react).map .listening
  | .unlisten id => (s.unlisten id).map .found

/-- Carries out operations one after the other: the answer and the effects of each, and the session
at the end. -/
def run (observer : Observer) : List (Timestamp × Operation) → Session → List (Answer × List Effect) × Session
  | [], s => ([], s)
  | (now, operation) :: rest, s =>
    let first := s.perform observer now operation
    let (others, final) := run observer rest first.session
    ((first.answer, first.effects) :: others, final)

/-- The session behind a run. -/
def after (observer : Observer) (operations : List (Timestamp × Operation)) (s : Session) : Session :=
  (s.run observer operations).2

theorem after_append (observer : Observer) (a b : List (Timestamp × Operation)) (s : Session) :
    s.after observer (a ++ b) = (s.after observer a).after observer b := by
  induction a generalizing s with
  | nil => rfl
  | cons first rest ih => exact ih _

end Session

end Drafting
