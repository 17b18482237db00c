import Drafting.Identifier.Series
import Drafting.Solving.Pass
import Drafting.Suggestion

/-! Sessions: the constraints of one drawing.

A session owns the constraints and its own view of the geometry. Each operation
is a function from a session to an `Outcome`: an answer, the session afterwards,
and the effects on the way, in order. There are three kinds of effects: lines in
the log, batches for the geometry store, and calls of listeners. What a listener
answers shows in the log and nowhere else. -/
namespace Drafting

/-- Someone who is told of every change, with a reaction to the list of constraints. A listener that remembers what it
was told before may react otherwise the next time; this is left out, since no reaction shows but in the log. -/
structure Listener where
  id : ListenerId
  react : List Constraint → Option ListenerError

/-- What an operation does to the outside. -/
inductive Effect where
  | logged (event : Event)
  /-- The geometry store receives the updates of a pass. -/
  | stored (batch : Batch)
  /-- A listener is given all constraints. -/
  | notified (listener : ListenerId) (constraints : List Constraint)
  deriving DecidableEq

/-- The constraints of one drawing, with all that is needed to manage them. -/
structure Session where
  solver : Solver
  suggestions : SuggestionSettings
  series : Series
  /-- In order of creation. -/
  constraints : List Constraint := []
  geometry : Snapshot := .empty
  /-- In order of registration. -/
  listeners : List Listener := []
  /-- The next number of a listener. It has 64 bits, which are enough for as many registrations. -/
  nextListener : Nat := 0
  /-- Whether a geometry store is attached. -/
  hasStore : Bool := false
  report : Option Report := none

/-- The outcome of an operation. -/
structure Outcome (α : Type) where
  answer : α
  session : Session
  effects : List Effect

namespace Session

/-- A session without constraints, unless a setting is out of range. -/
def ofSettings (settings : Settings) (series : Series) (hasStore : Bool) : Except SettingsError Session := do
  let solver ← Solver.ofSettings settings.solver
  settings.suggestions.check
  return { solver, suggestions := settings.suggestions, series, hasStore }

/-! ### Queries -/

def constraint? (s : Session) (id : ConstraintId) : Option Constraint := s.constraints.find? (·.id == id)

def constraintsOn (s : Session) (e : EntityId) : List Constraint := s.constraints.filter (·.mentions e)

def activeConstraints (s : Session) : List Constraint := s.constraints.filter (·.active)

def freedom (s : Session) : Freedom := .of s.constraints s.geometry

/-! ### Changes -/

/-- Every listener is called, in order of registration; failures go to the log. -/
def notify (s : Session) : List Effect :=
  s.listeners.flatMap fun l =>
    .notified l.id s.constraints ::
      (match l.react s.constraints with
        | some error => [.logged (.listenerFailed l.id error)]
        | none => [])

/-- The whole view of the geometry is replaced. -/
def replaceGeometry (snapshot : Snapshot) (s : Session) : Outcome Unit :=
  ⟨(), { s with geometry := snapshot }, [.logged (.snapshotReplaced snapshot.size)]⟩

/-- The parameters of a new constraint. An entity fixed without a point is fixed where it is. -/
def completed (s : Session) (kind : ConstraintKind) (ids : List EntityId) (parameters : Parameters) : Parameters :=
  if kind = .fix ∧ ParameterKey.point ∉ parameters then
    match ids.head?.bind s.geometry.get? with
    | some e => parameters.insert .point (.point e.reference)
    | none => parameters
  else parameters

/-- Checks a request and adds the constraint. Nothing changes if it is refused. -/
def create (now : Timestamp) (r : Request) (s : Session) : Outcome (Except AdmissionError ConstraintId) :=
  match Admission.check s.geometry r.kind r.entities r.parameters with
  | .error e => ⟨.error e, s, [.logged (.rejected r.kind e)]⟩
  | .ok () =>
    let c : Constraint :=
      { id := s.series.next, kind := r.kind, entities := r.entities
        parameters := s.completed r.kind r.entities r.parameters, active := true, satisfied := false
        priority := r.priority.getD .normal, metadata := .new now r.description }
    let s := { s with series := s.series.advance, constraints := s.constraints ++ [c] }
    ⟨.ok c.id, s, .logged (.created c.kind c.id c.entities.length) :: s.notify⟩

/-- Removes a constraint. The answer is whether there was one. -/
def remove (id : ConstraintId) (s : Session) : Outcome Bool :=
  match s.constraint? id with
  | none => ⟨false, s, []⟩
  | some c =>
    let s := { s with constraints := s.constraints.eraseP (·.id == id) }
    ⟨true, s, .logged (.removed c.kind id) :: s.notify⟩

/-- Switches a constraint over, or to `active` if that is given. The answer is whether there was one. -/
def toggle (now : Timestamp) (id : ConstraintId) (active : Option Bool) (s : Session) : Outcome Bool :=
  match s.constraints.findIdx? (·.id == id) with
  | none => ⟨false, s, []⟩
  | some i =>
    let switched (c : Constraint) : Constraint := { c with active := active.getD !c.active }.touched now
    let s := { s with constraints := s.constraints.modify i switched }
    let state := (s.constraints[i]?.map (·.active)).getD false
    ⟨true, s, .logged (.toggled id state) :: s.notify⟩

/-- A constraint with the verdict of its solution, the last one if there are several; a new verdict is a change. -/
def judged (now : Timestamp) (solutions : List Solution) (c : Constraint) : Constraint :=
  match solutions.reverse.find? (·.constraint == c.id) with
  | some solution =>
    if c.satisfied = solution.satisfied then c else { c with satisfied := solution.satisfied }.touched now
  | none => c

/-- Runs a pass and takes over what it produced. The store receives the updates of the whole pass,
unless there are none. -/
def solve (observer : Observer) (now : Timestamp) (s : Session) : Outcome (List Solution) :=
  let pass := s.solver.run observer s.constraints s.geometry
  let batch := Snapshot.changes s.geometry pass.geometry
  let handed : List Effect :=
    if batch.isEmpty then []
    else if s.hasStore then [.logged (.forwarded batch.size), .stored batch]
    else [.logged (.keptLocally batch.size)]
  let s :=
    { s with
      constraints := s.constraints.map (judged now pass.solutions)
      geometry := pass.geometry
      report := some pass.report }
  ⟨pass.solutions, s, pass.log.map .logged ++ handed ++ s.notify⟩

/-- Adds the constraint that a pair of entities suggests, unless there is one already that relates the two in either
order (`EntityId.isPerm_eq_sorted`). -/
def connect (now : Timestamp) (first second : EntityId) (s : Session) : Outcome (List ConstraintId) :=
  match s.geometry.get? first, s.geometry.get? second with
  | some a, some b =>
    match suggest s.suggestions a b with
    | none => ⟨[], s, []⟩
    | some kind =>
      if s.constraints.any fun c => c.kind == kind && c.entities.isPerm [first, second] then
        ⟨[], s, [.logged (.pairConstrained kind first second)]⟩
      else
        let outcome := s.create now
          { kind, entities := [first, second], priority := some .low, description := some kind.suggestionText }
        match outcome.answer with
        | .ok id => ⟨[id], outcome.session, outcome.effects⟩
        | .error e =>
          ⟨[], outcome.session, outcome.effects ++ [.logged (.suggestionRejected kind e)]⟩
  | _, _ => ⟨[], s, [.logged (.pairMissing first second)]⟩

/-- Connects pairs one after the other. -/
def connectAll (now : Timestamp) : List (EntityId × EntityId) → Session → Outcome (List ConstraintId)
  | [], s => ⟨[], s, []⟩
  | (first, second) :: rest, s =>
    let one := s.connect now first second
    let others := connectAll now rest one.session
    ⟨one.answer ++ others.answer, others.session, one.effects ++ others.effects⟩

/-- The pairs of places `i < j` of a list, in order. -/
def pairs {α : Type} : List α → List (α × α)
  | [] => []
  | a :: rest => rest.map (a, ·) ++ pairs rest

/-- Adds the constraints that the pairs of entities suggest. The answer is what was added. -/
def connectPairs (now : Timestamp) (ids : List EntityId) (s : Session) : Outcome (List ConstraintId) :=
  s.connectAll now (pairs ids)

/-- Registers a listener. -/
def listen (react : List Constraint → Option ListenerError) (s : Session) : Outcome ListenerId :=
  let id : ListenerId := ⟨s.nextListener⟩
  ⟨id, { s with listeners := s.listeners ++ [⟨id, react⟩], nextListener := s.nextListener + 1 }, []⟩

/-- Takes a listener off. The answer is whether there was one. -/
def unlisten (id : ListenerId) (s : Session) : Outcome Bool :=
  let kept := s.listeners.filter (·.id != id)
  ⟨kept.length != s.listeners.length, { s with listeners := kept }, []⟩

end Session

end Drafting
