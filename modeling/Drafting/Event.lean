import Drafting.Admission
import Drafting.Solving.Failure

/-! The log: what happens while constraints are made, changed and solved.

An event says what happened; its level and its message follow from that. An
`Observer` hears the events of an attempt one by one and may refuse one, which
interrupts the attempt. -/
namespace Drafting

/-- Names a listener. -/
structure ListenerId where
  number : Nat
  deriving DecidableEq, Repr

def ListenerId.text (id : ListenerId) : String := "listener#" ++ toString id.number

/-- How a listener fails. -/
inductive ListenerError where
  /-- It reports a failure. -/
  | failed (reason : String)
  /-- It breaks off. -/
  | panicked (reason : String)
  deriving DecidableEq, Repr

def ListenerError.message : ListenerError → String
  | .failed reason => "Listener failed: " ++ reason
  | .panicked reason => "Listener panicked: " ++ reason

inductive Level where
  | debug
  | info
  | warn
  deriving DecidableEq, Repr

def Level.text : Level → String
  | .debug => "DEBUG"
  | .info => "INFO"
  | .warn => "WARN"

/-- Something worth a line in the log. -/
inductive Event where
  /-- A corrective step did not reduce the residual. -/
  | stalled (id : ConstraintId) (iterations : Nat) (residual : Float)
  /-- An attempt ended without an error. -/
  | settled (id : ConstraintId) (kind : ConstraintKind) (iterations : Nat) (residual : Float)
  /-- An attempt ended with an error. -/
  | failed (id : ConstraintId) (kind : ConstraintKind) (error : SolveError)
  /-- An attempt was interrupted. -/
  | interrupted (id : ConstraintId) (reason : String)
  | passDone (satisfied count : Nat) (iterations : UInt32)
  | snapshotReplaced (size : Nat)
  | rejected (kind : ConstraintKind) (error : AdmissionError)
  | created (kind : ConstraintKind) (id : ConstraintId) (entities : Nat)
  | removed (kind : ConstraintKind) (id : ConstraintId)
  | toggled (id : ConstraintId) (active : Bool)
  | forwarded (entities : Nat)
  | keptLocally (entities : Nat)
  | pairMissing (first second : EntityId)
  | pairConstrained (kind : ConstraintKind) (first second : EntityId)
  | suggestionRejected (kind : ConstraintKind) (error : AdmissionError)
  | listenerFailed (id : ListenerId) (error : ListenerError)
  deriving DecidableEq

namespace Event

def level : Event → Level
  | .failed .. | .interrupted .. | .suggestionRejected .. | .listenerFailed .. => .warn
  | .passDone .. | .created .. | .removed .. | .toggled .. => .info
  | _ => .debug

def message : Event → String
  | stalled id iterations residual =>
    "Constraint " ++ id.text ++ " made no progress at iteration " ++ toString iterations ++ " (residual " ++
      Number.scientific 3 residual ++ ")"
  | settled id kind iterations residual =>
    "Constraint " ++ id.text ++ " (" ++ kind.text ++ ") settled after " ++ toString iterations ++
      " iterations, residual " ++ Number.scientific 3 residual
  | failed id kind error => "Constraint " ++ id.text ++ " (" ++ kind.text ++ ") failed: " ++ error.message
  | interrupted id reason => "Constraint " ++ id.text ++ " panicked during solve: " ++ reason
  | passDone satisfied count iterations =>
    "Solve pass: " ++ toString satisfied ++ "/" ++ toString count ++ " constraints satisfied in " ++
      toString iterations.toNat ++ " iterations"
  | snapshotReplaced size => "Entity snapshot replaced (" ++ toString size ++ " entities)"
  | rejected kind error => "Rejected " ++ kind.text ++ " constraint: " ++ error.message
  | created kind id entities =>
    "Created " ++ kind.text ++ " constraint " ++ id.text ++ " on " ++ toString entities ++ " entities"
  | removed kind id => "Removed " ++ kind.text ++ " constraint " ++ id.text
  | toggled id active => "Constraint " ++ id.text ++ " active: " ++ (if active then "true" else "false")
  | forwarded entities => "Forwarding updates for " ++ toString entities ++ " entities to the geometry store"
  | keptLocally entities =>
    "No geometry store attached; " ++ toString entities ++ " entity updates kept locally"
  | pairMissing first second =>
    "Skipping auto-constraint pair " ++ first.text ++ " / " ++ second.text ++ ": entity missing"
  | pairConstrained kind first second =>
    kind.text ++ " already constrains " ++ first.text ++ " / " ++ second.text
  | suggestionRejected kind error => "Auto-constraint " ++ kind.text ++ " rejected: " ++ error.message
  | listenerFailed id error => "Change " ++ id.text ++ " failed: " ++ error.message

end Event

/-- Hears events, and refuses some of them with a reason. -/
abbrev Observer := Event → Option String

namespace Observer

/-- Refuses nothing. -/
def silent : Observer := fun _ => none

/-- The events that are heard, up to the first refused one, and its reason. -/
def hear (observer : Observer) : List Event → List Event × Option String
  | [] => ([], none)
  | e :: rest =>
    match observer e with
    | some reason => ([e], some reason)
    | none => (e :: (hear observer rest).1, (hear observer rest).2)

/-- Whoever breaks off has refused one of the events. -/
theorem refused_of_hear {observer : Observer} {events : List Event} {reason : String}
    (h : (observer.hear events).2 = some reason) : ∃ e ∈ events, observer e = some reason := by
  induction events with
  | nil => cases h
  | cons e rest ih =>
    unfold hear at h
    split at h
    · rename_i refusal hrefusal
      exact ⟨e, List.mem_cons_self, hrefusal.trans h⟩
    · obtain ⟨e', hmem, hrefusal⟩ := ih h
      exact ⟨e', List.mem_cons_of_mem e hmem, hrefusal⟩

end Observer

end Drafting
